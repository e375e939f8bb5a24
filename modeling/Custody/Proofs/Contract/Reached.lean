import Custody.Proofs.Contract.History
import Custody.Proofs.Escrow.Run
import Custody.Proofs.Ledger.Frame

/-!
# Reached stores

The stores that come about when the contract is set up and called, when the operations on escrows
run on any bank, whether or not they fail, and when channels, accounts and settings are written. The
ledger of each is sound.
-/

namespace Custody

open Store.Key (Family OfLedger)

/-- The families of keys that escrows are not kept under. -/
def Ledger.otherFamilies : List Family := [.channel, .account, .config, .version]

theorem Ledger.not_ofLedger_of_holds {f : Family} (hf : f ∈ otherFamilies) {key : Bytes}
    (hholds : f.Holds key) : ¬ OfLedger key := by
  simp only [otherFamilies, List.mem_cons, List.not_mem_nil, or_false] at hf
  rcases hf with rfl | rfl | rfl | rfl
  · obtain ⟨rest, rfl⟩ := (Store.Key.Family.holds_iff_start rfl).1 hholds
    change ¬ (0x61 : UInt8) < 3
    decide
  · obtain ⟨rest, rfl⟩ := (Store.Key.Family.holds_iff_start rfl).1 hholds
    change ¬ (0x41 : UInt8) < 3
    decide
  · obtain rfl : key = Store.Key.config := hholds
    exact Store.Key.not_ofLedger_config
  · obtain rfl : key = Store.Key.version := hholds
    exact Store.Key.not_ofLedger_version

theorem Ledger.Change.same {c : Change} (h : ∀ f ∈ c.families, f ∈ otherFamilies) (s : Store) :
    Same (c.after s) s := by
  intro key hkey
  apply c.sameBut s key
  rintro ⟨f, hf, hholds⟩
  exact not_ofLedger_of_holds (h f hf) hholds hkey

namespace Contract

/-- A store that the operations of the contract and of its keeper can lead to. -/
inductive Reached : Store → Prop
  | empty : Reached .empty
  | instantiated {s : Store} (h : Reached s) (setup : Setup) :
      Reached ((instantiate setup).after s)
  | called {s : Store} (h : Reached s) (contract : Address) (i : Invocation) :
      Reached (i.committed contract s)
  | acted {β : Type} [Custodian β] {s : Store} (h : Reached s) (cfg : Config) (bank : β)
      (a : Vault.Action) : Reached (a.after cfg ⟨s, bank⟩).store
  | changed {s : Store} (h : Reached s) (c : Ledger.Change)
      (hothers : ∀ f ∈ c.families, f ∈ Ledger.otherFamilies) : Reached (c.after s)

/-- A run on any bank leads on from a reached store. -/
theorem Reached.run {β : Type} [Custodian β] (cfg : Config) {v : Vault β} (h : Reached v.store)
    (actions : List Vault.Action) : Reached (Vault.run cfg actions v).store := by
  induction actions generalizing v with
  | nil => exact h
  | cons a actions ih => exact ih (h.acted cfg v.bank a)

theorem isSound_committed {s : Store} (h : Ledger.IsSound s) (contract : Address)
    (i : Invocation) : Ledger.IsSound (i.committed contract s) := by
  rcases committed_cases contract i s with ⟨-, hsame⟩ | ⟨r, -, rfl, hafter, hvalid⟩
  · rw [hsame]
    exact h
  · rw [← hafter]
    exact isSound_of_receipt hvalid h

theorem Reached.isSound {s : Store} (h : Reached s) : Ledger.IsSound s := by
  induction h with
  | empty => exact ⟨0, Ledger.Sound.empty⟩
  | instantiated _ setup ih => exact ih.congr (same_instantiated setup _)
  | called _ contract i ih => exact isSound_committed ih contract i
  | acted _ cfg bank a ih => exact Vault.isSound_after cfg ih a
  | changed _ c hothers ih => exact ih.congr (c.same hothers _)

end Contract

end Custody
