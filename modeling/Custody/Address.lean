import Custody.Bech32.Basic
import Custody.Hash.Sha256
import Custody.Text.Blank

/-!
# Account addresses

Bech32 text under a configured human-readable part. The addresses of modules and of channel escrow
accounts are the first twenty bytes of a digest.
-/

namespace Custody

abbrev Address := String

namespace Address

inductive Fault where
  | empty
  | malformed (why : Bech32.Fault)
  | wrongVariant
  | wrongHrp (expected found : String)
  | outOfRange (length : Nat)
  deriving DecidableEq, Repr

def Fault.message : Fault → String
  | .empty => "empty address string is not allowed"
  | .malformed why => why.message
  | .wrongVariant => "expected bech32, got bech32m"
  | .wrongHrp expected found => s!"invalid Bech32 prefix; expected {expected}, got {found}"
  | .outOfRange length => s!"address length {length} out of range"

/-- The bytes an address stands for under `hrp`. -/
def payload (hrp : String) (address : String) : Except Fault Bytes := do
  if Text.allBlank address then throw .empty
  let decoded ← (Bech32.decode address).mapError .malformed
  if decoded.variant ≠ .bech32 then throw .wrongVariant
  if decoded.hrp ≠ hrp then throw (.wrongHrp hrp decoded.hrp)
  match Bech32.bytesOfSymbols? decoded.data with
  | none => throw (.malformed .invalidPadding)
  | some raw =>
    if 0 < raw.length ∧ raw.length ≤ 255 then return raw else throw (.outOfRange raw.length)

/-- Accepts an address in the spelling it has. -/
def validate (hrp : String) (address : String) : Except Fault Address :=
  (payload hrp address).map fun _ => address

def encode (hrp : String) (raw : Bytes) : Except Bech32.Fault Address :=
  Bech32.encode hrp (Bech32.symbolsOfBytes raw)

def ofDigest (hrp : String) (preimage : Bytes) : Except Bech32.Fault Address :=
  encode hrp ((Hash.Sha256.digest preimage).take 20)

def ofModule (hrp : String) (name : String) : Except Bech32.Fault Address :=
  ofDigest hrp (Bytes.ofString name)

/-- What is hashed for the account that holds the funds sent out over a channel. -/
def escrowPreimage (port channel : String) : Bytes :=
  Bytes.ofString "ics20-1" ++ 0 :: Bytes.ofString (port ++ "/" ++ channel)

def ofChannelEscrow (hrp : String) (port channel : String) : Except Bech32.Fault Address :=
  ofDigest hrp (escrowPreimage port channel)

end Address

end Custody
