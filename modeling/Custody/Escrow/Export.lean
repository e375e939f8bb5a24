import Custody.Config
import Custody.Escrow.Message
import Custody.Ledger.Basic

/-!
# Proof material

What another chain needs to look an escrow up in this chain's commitment: the key path and the
committed bytes. Only the current height can be described.
-/

namespace Custody

structure ProofMaterial where
  height : UInt64
  /-- The committed bytes. -/
  value : Bytes
  /-- The name of the store and the key in hexadecimal. -/
  keyPath : List String
  escrowId : String
  amount : Coin
  deriving DecidableEq

inductive Export where
  | current (material : ProofMaterial)
  | rejected (requested current : UInt64)
  deriving DecidableEq

/-- Describes the escrow that a route points to; a height of zero means the current one. -/
def Export.describe (s : Store) (cfg : Config) (chain denom : String) (height now : UInt64) :
    Except Error Export := do
  requireNonBlank chain "consumer_chain_id"
  requireNonBlank denom "denom"
  if height ≠ 0 ∧ height ≠ now then return .rejected height now
  match ← Ledger.byRoute s chain denom with
  | none => .error (.notFound (.escrowOnRoute chain denom))
  | some e =>
    if e.id = "" then .error (.internal .escrowWithoutId)
    else return .current {
      height := now
      value := e.encode
      keyPath := [cfg.storeKey, (Store.Key.escrow e.id).hex]
      escrowId := e.id
      amount := e.amount }

end Custody
