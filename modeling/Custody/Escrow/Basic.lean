import Custody.Escrow.Status

/-!
# Escrows

What is recorded of funds set aside for a consumer chain.
-/

namespace Custody

structure Escrow where
  id : String
  chain : String
  amount : Coin
  /-- Empty while the recipient is not known. -/
  recipient : String
  expiryHeight : UInt64
  expiryTime : UInt64
  status : Status
  deriving DecidableEq, Inhabited

instance : JsonForm Escrow where
  toJson e := .obj [
    ("escrow_id", toJson e.id),
    ("consumer_chain_id", toJson e.chain),
    ("amount", toJson e.amount),
    ("recipient", toJson e.recipient),
    ("expiry_height", toJson e.expiryHeight),
    ("expiry_time_unix", toJson e.expiryTime),
    ("status", toJson e.status)]
  ofJson? j := do
    let m ← j.record? ["escrow_id", "consumer_chain_id", "amount", "recipient", "expiry_height",
      "expiry_time_unix", "status"]
    some {
      id := ← Json.member? m "escrow_id"
      chain := ← Json.member? m "consumer_chain_id"
      amount := ← Json.member? m "amount"
      recipient := ← Json.member? m "recipient"
      expiryHeight := ← Json.member? m "expiry_height"
      expiryTime := ← Json.member? m "expiry_time_unix"
      status := ← Json.member? m "status" }

end Custody
