import Custody.Escrow.Basic

/-!
# Escrow messages

The three requests on escrows, and the checks on them that need no state.
-/

namespace Custody

/-- Sets funds aside for a consumer chain. -/
structure Initiate where
  sender : String
  chain : String
  amount : Coin
  /-- Empty while the recipient is not known. -/
  recipient : String
  expiryHeight : UInt64
  expiryTime : UInt64
  deriving DecidableEq, Inhabited

/-- Asks for the funds of the pending escrow on a route to be given back. -/
structure Cancel where
  sender : String
  chain : String
  denom : String
  deriving DecidableEq, Inhabited

/-- Reports that an escrow was claimed on the consumer chain. -/
structure Claim where
  sender : String
  escrowId : String
  chain : String
  deriving DecidableEq, Inhabited

def requireNonBlank (value field : String) : Except Error Unit :=
  if Text.allBlank value then .error (.invalidRequest (.blankField field)) else .ok ()

def requireCoin (c : Coin) : Except Error Unit := c.check.mapError .invalidCoins

def requireDenom (denom : String) : Except Error Unit :=
  (Coin.checkDenom denom).mapError .invalidCoins

def requireAddress (hrp address : String) : Except Error Address :=
  (Address.validate hrp address).mapError (.invalidAddress none)

/-- As `requireAddress`; the error names the field. -/
def requireField (hrp address field : String) : Except Error Unit :=
  match Address.validate hrp address with
  | .error why => .error (.invalidAddress (some field) why)
  | .ok _ => .ok ()

namespace Initiate

def check (hrp : String) (m : Initiate) : Except Error Unit := do
  requireField hrp m.sender "sender"
  requireNonBlank m.chain "consumer_chain_id"
  requireCoin m.amount
  if m.recipient = "" then return () else requireField hrp m.recipient "recipient"

instance : JsonForm Initiate where
  toJson m := .obj [
    ("sender", toJson m.sender),
    ("consumer_chain_id", toJson m.chain),
    ("amount", toJson m.amount),
    ("recipient", toJson m.recipient),
    ("expiry_height", toJson m.expiryHeight),
    ("expiry_time_unix", toJson m.expiryTime)]
  ofJson? j := do
    let m ← j.record? ["sender", "consumer_chain_id", "amount", "recipient", "expiry_height",
      "expiry_time_unix"]
    some {
      sender := ← Json.member? m "sender"
      chain := ← Json.member? m "consumer_chain_id"
      amount := ← Json.member? m "amount"
      recipient := ← Json.member? m "recipient"
      expiryHeight := ← Json.member? m "expiry_height"
      expiryTime := ← Json.member? m "expiry_time_unix" }

end Initiate

namespace Cancel

def check (hrp : String) (m : Cancel) : Except Error Unit := do
  requireField hrp m.sender "sender"
  requireNonBlank m.chain "consumer_chain_id"
  requireDenom m.denom

instance : JsonForm Cancel where
  toJson m := .obj [
    ("sender", toJson m.sender),
    ("consumer_chain_id", toJson m.chain),
    ("denom", toJson m.denom)]
  ofJson? j := do
    let m ← j.record? ["sender", "consumer_chain_id", "denom"]
    some {
      sender := ← Json.member? m "sender"
      chain := ← Json.member? m "consumer_chain_id"
      denom := ← Json.member? m "denom" }

end Cancel

namespace Claim

def check (hrp : String) (m : Claim) : Except Error Unit := do
  requireField hrp m.sender "sender"
  requireNonBlank m.escrowId "escrow_id"
  requireNonBlank m.chain "consumer_chain_id"

instance : JsonForm Claim where
  toJson m := .obj [
    ("sender", toJson m.sender),
    ("escrow_id", toJson m.escrowId),
    ("consumer_chain_id", toJson m.chain)]
  ofJson? j := do
    let m ← j.record? ["sender", "escrow_id", "consumer_chain_id"]
    some {
      sender := ← Json.member? m "sender"
      escrowId := ← Json.member? m "escrow_id"
      chain := ← Json.member? m "consumer_chain_id" }

end Claim

end Custody
