import Custody.Ibc.Channel

/-!
# Packets

What travels over a channel, the data of token transfers, and the acknowledgements that come back.
-/

namespace Custody.Ibc

structure Packet where
  source : Endpoint
  destination : Endpoint
  sequence : UInt64
  data : Bytes
  deriving DecidableEq

/-- A transfer of tokens. Members with other names do not count, and the memo may be missing. -/
structure TransferData where
  denom : String
  amount : String
  sender : String
  receiver : String
  memo : String
  deriving DecidableEq

instance : JsonForm TransferData where
  toJson d := .obj [
    ("denom", toJson d.denom),
    ("amount", toJson d.amount),
    ("sender", toJson d.sender),
    ("receiver", toJson d.receiver),
    ("memo", toJson d.memo)]
  ofJson? j := do
    let m ← j.tolerantRecord? ["denom", "amount", "sender", "receiver", "memo"]
    some {
      denom := ← Json.member? m "denom"
      amount := ← Json.member? m "amount"
      sender := ← Json.member? m "sender"
      receiver := ← Json.member? m "receiver"
      memo := ← Json.memberOr? m "memo" "" }

inductive Acknowledgement where
  | result (value : Bytes)
  | error (reason : String)
  deriving DecidableEq

namespace Acknowledgement

def success : Acknowledgement := .result [1]

def isSuccess : Acknowledgement → Bool
  | .result _ => true
  | .error _ => false

instance : JsonForm Acknowledgement where
  toJson
    | .result value => .variant "result" (.ofBytes value)
    | .error reason => .variant "error" (.str reason)
  ofJson? j := do
    match ← j.variant? with
    | ("result", some content) => (content.bytes?).map .result
    | ("error", some content) => (ofJson? content).map .error
    | _ => none

end Acknowledgement

end Custody.Ibc
