import Custody.Escrow.Basic
import Custody.Wire.Layout

/-!
# The committed form of an escrow

The bytes that another chain verifies against this one's commitment: a message whose fields stand
in tag order, defaults left out, so that an escrow has one form only.
-/

namespace Custody

structure CoinRecord where
  denom : String := ""
  amount : String := ""
  deriving DecidableEq, Inhabited

structure EscrowRecord where
  escrowId : String := ""
  chain : String := ""
  amount : Option CoinRecord := none
  recipient : String := ""
  expiryHeight : UInt64 := 0
  expiryTime : UInt64 := 0
  status : Int32 := 0
  deriving DecidableEq, Inhabited

open Wire (Field Layout)

def CoinRecord.layout : Layout CoinRecord where
  name := "CoinRecord"
  blank := {}
  fields := [
    Field.text 1 "denom" denom fun r s => { r with denom := s },
    Field.text 2 "amount" amount fun r s => { r with amount := s }]

def EscrowRecord.layout : Layout EscrowRecord where
  name := "EscrowRecord"
  blank := {}
  fields := [
    Field.text 1 "escrow_id" escrowId fun r s => { r with escrowId := s },
    Field.text 2 "consumer_chain_id" chain fun r s => { r with chain := s },
    Field.message 3 "amount" CoinRecord.layout amount fun r c => { r with amount := some c },
    Field.text 4 "recipient" recipient fun r s => { r with recipient := s },
    Field.uint64 5 "expiry_height" expiryHeight fun r n => { r with expiryHeight := n },
    Field.uint64 6 "expiry_time_unix" expiryTime fun r n => { r with expiryTime := n },
    Field.int32 7 "status" status fun r n => { r with status := n }]

def Status.code : Status → Int32
  | .pending => 1
  | .claimed => 2
  | .canceled => 3

def Status.ofCode? (code : Int32) : Option Status :=
  if code = 1 then some .pending
  else if code = 2 then some .claimed
  else if code = 3 then some .canceled
  else none

namespace Escrow

def record (e : Escrow) : EscrowRecord where
  escrowId := e.id
  chain := e.chain
  amount := some { denom := e.amount.denom, amount := e.amount.amount.text }
  recipient := e.recipient
  expiryHeight := e.expiryHeight
  expiryTime := e.expiryTime
  status := e.status.code

/-- An amount left out is zero. -/
def amountOfRecord (text : String) : Except Error Amount :=
  if text = "" then .ok .zero else (Amount.read text).mapError .invalidAmount

def ofRecord (r : EscrowRecord) : Except Error Escrow :=
  match Status.ofCode? r.status with
  | none => .error (.unreadableRecord (.unknownStatus r.status))
  | some status => do
    let coin := r.amount.getD {}
    let amount ← amountOfRecord coin.amount
    .ok {
      id := r.escrowId
      chain := r.chain
      amount := { denom := coin.denom, amount }
      recipient := r.recipient
      expiryHeight := r.expiryHeight
      expiryTime := r.expiryTime
      status }

def encode (e : Escrow) : Bytes := EscrowRecord.layout.write e.record

def decode (b : Bytes) : Except Error Escrow := do
  let r ← (EscrowRecord.layout.read b).mapError fun f => .unreadableRecord (.malformed f)
  ofRecord r

end Escrow

end Custody
