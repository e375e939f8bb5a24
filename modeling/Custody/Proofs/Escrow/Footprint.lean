import Custody.Proofs.Ledger.Records

/-!
# Where operations on escrows write

Whatever the store holds and however an operation ends, it writes under the keys of the ledger only.
-/

namespace Custody

open Store.Key (OfLedger)

namespace Ledger

/-- The stores agree on all that escrows are not kept under. -/
def SameOutside (s t : Store) : Prop := Store.AgreeOn (fun key => ¬ OfLedger key) s t

namespace SameOutside

theorem refl (s : Store) : SameOutside s s := Store.AgreeOn.refl s

theorem trans {s t u : Store} (h : SameOutside s t) (h' : SameOutside t u) : SameOutside s u :=
  Store.AgreeOn.trans h h'

theorem insert {key : Bytes} (hkey : OfLedger key) (s : Store) (value : Bytes) :
    SameOutside (s.insert key value) s :=
  Store.AgreeOn.insert (not_not_intro hkey) s value

theorem entered (e : Escrow) (s : Store) : SameOutside (entered e s) s :=
  (insert (Store.Key.ofLedger_route _ _) _ _).trans (insert (Store.Key.ofLedger_escrow _) _ _)

theorem opened (m : Initiate) (n : Nat) (s : Store) : SameOutside (Vault.opened m n s) s :=
  ((insert (Store.Key.ofLedger_depositor _) _ _).trans (entered _ _)).trans
    (insert Store.Key.ofLedger_counter _ _)

end SameOutside

end Ledger

namespace Vault

open Ledger (SameOutside)

variable {β : Type}

theorem sameOutside_initiate [Custodian β] (cfg : Config) (m : Initiate) (v : Vault β) :
    SameOutside ((initiate cfg m).after v).store v.store := by
  have houtcome := initiate_outcome cfg m v
  unfold Operation.after
  generalize initiate cfg m v = r at houtcome
  cases houtcome with
  | refused e => exact .refl _
  | stranded e hholder hsend => exact .refl _
  | opened hcoin hholder hsend hlast hn => exact .opened m _ v.store

theorem sameOutside_cancel [Custodian β] (cfg : Config) (m : Cancel) (v : Vault β) :
    SameOutside ((cancel cfg m).after v).store v.store := by
  have houtcome := cancel_outcome cfg m v
  unfold Operation.after
  generalize cancel cfg m v = r at houtcome
  cases houtcome with
  | refused he => exact .refl _
  | homeless hholder => exact .refl _
  | unpaid hfound hholder hsend => exact .refl _
  | halfway hfound hholder hsend hid => exact .insert (Store.Key.ofLedger_escrow _) _ _
  | settled hfound howner hholder hsend hid => exact .entered _ _

theorem sameOutside_claim (m : Claim) (v : Vault β) :
    SameOutside ((claim m).after v).store v.store := by
  have houtcome := claim_outcome m v
  unfold Operation.after
  generalize claim m v = r at houtcome
  cases houtcome with
  | refused e => exact .refl _
  | halfway hfound hpending hid => exact .insert (Store.Key.ofLedger_escrow _) _ _
  | settled hfound hpending hid => exact .entered _ _

end Vault

end Custody
