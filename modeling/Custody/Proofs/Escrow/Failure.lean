import Mathlib.Control.Monad.Basic
import Custody.Bank.Balances
import Custody.Proofs.Escrow.Outcome

/-!
# Failed operations on escrows

Canceling and claiming check everything before they change anything. Initiating takes the funds
before it asks for an id, so where the counter has none to give they stay in custody.
-/

namespace Custody.Vault

open Operation (Traceless)

variable {β : Type} [Custodian β] {cfg : Config} {v : Vault β} {e : Error}

theorem traceless_cancel (cfg : Config) (m : Cancel) :
    Traceless (cancel cfg m : Operation (Vault β) Escrow) := by
  intro v e herror hreturned
  have houtcome := cancel_outcome cfg m v
  rw [Operation.error_of_result herror] at houtcome
  generalize (cancel cfg m).after v = v' at houtcome
  cases houtcome with
  | refused he => rfl
  | homeless hholder => rfl
  | unpaid hfound hholder hsend => rfl
  | halfway hfound hholder hsend hid => exact hreturned.elim

omit [Custodian β] in
theorem traceless_claim (m : Claim) : Traceless (claim m : Operation (Vault β) Escrow) := by
  intro v e herror hreturned
  have houtcome := claim_outcome m v
  rw [Operation.error_of_result herror] at houtcome
  generalize (claim m).after v = v' at houtcome
  cases houtcome with
  | refused e => rfl
  | halfway hfound hpending hid => exact hreturned.elim

/-- The funds went into custody before it turned out that there is no id to give. Nothing else has
changed. -/
structure Stranded (cfg : Config) (m : Initiate) (v : Vault β) (e : Error) : Prop where
  refused : Ledger.nextId.result v.store = .error e
  moved : ∃ account bank, v.holder cfg = .ok account ∧
    Custodian.send v.bank m.sender account m.amount = .ok bank ∧
    (initiate cfg m).after v = { v with bank }

theorem initiate_failure {m : Initiate} (herror : (initiate cfg m).result v = .error e) :
    (initiate cfg m).after v = v ∨ Stranded cfg m v e := by
  have hrun := Operation.error_of_result herror
  have houtcome := initiate_outcome cfg m v
  rw [hrun] at houtcome
  generalize hafter : (initiate cfg m).after v = v' at houtcome
  cases houtcome with
  | refused e => exact .inl rfl
  | stranded e hholder hsend hnone =>
      exact .inr ⟨Operation.result_error hnone, _, _, hholder, hsend, hafter⟩

theorem store_of_initiate_failure {m : Initiate} (herror : (initiate cfg m).result v = .error e) :
    ((initiate cfg m).after v).store = v.store := by
  rcases initiate_failure herror with hsame | hstranded
  · rw [hsame]
  · obtain ⟨account, bank, -, -, hafter⟩ := hstranded.moved
    rw [hafter]

/-- Whatever the store and the bank hold: a cancellation or a claim that returns an error has
changed nothing, and neither has an opening, unless it is the counter that refuses. -/
theorem failures_traceless (cfg : Config) (v : Vault β) (hreturned : e.IsReturned) :
    (∀ m : Cancel, (cancel cfg m).result v = .error e → (cancel cfg m).after v = v) ∧
    (∀ m : Claim, (claim m).result v = .error e → (claim m).after v = v) ∧
    ∀ m : Initiate, (initiate cfg m).result v = .error e →
      (initiate cfg m).after v = v ∨ Stranded cfg m v e := by
  refine ⟨?_, ?_, ?_⟩
  · intro m herror
    exact traceless_cancel cfg m v e herror hreturned
  · intro m herror
    exact traceless_claim m v e herror hreturned
  · intro m herror
    exact initiate_failure herror

theorem failures_traceless_counter_spent :
    let alice := "maany190vqdjtlpcq27xslcveglfmr4ynfwg7g9637yr"
    let coin : Coin := ⟨"umaany", ⟨100, by decide⟩⟩
    let m : Initiate := ⟨alice, "dex-1", coin, "", 0, 0⟩
    let v : Vault Balances := ⟨Store.empty.insert Store.Key.counter (List.replicate 8 0xFF),
      (Balances.empty "maany").set alice coin⟩
    (initiate {} m).result v = .error (.internal .counterOverflow) ∧
      ((initiate {} m).after v = v ∨ Stranded {} m v (.internal .counterOverflow)) ∧
      (cancel {} ⟨alice, "dex-1", "umaany"⟩).result v =
        .error (.notFound (.pendingEscrow "dex-1" "umaany")) ∧
      (cancel {} ⟨alice, "dex-1", "umaany"⟩).after v = v ∧
      (claim ⟨alice, "1", "dex-1"⟩).result v = .error (.notFound (.escrow "1")) ∧
      (claim ⟨alice, "1", "dex-1"⟩).after v = v := by
  intro alice coin m v
  have hinitiate : (initiate {} m).result v = .error (.internal .counterOverflow) := by
    decide +kernel
  have hcancel : (cancel {} ⟨alice, "dex-1", "umaany"⟩).result v =
      .error (.notFound (.pendingEscrow "dex-1" "umaany")) := by
    decide +kernel
  have hclaim : (claim ⟨alice, "1", "dex-1"⟩).result v = .error (.notFound (.escrow "1")) := by
    decide +kernel
  have hspent : Error.IsReturned (.internal .counterOverflow) := trivial
  have hmissing : Error.IsReturned (.notFound (.pendingEscrow "dex-1" "umaany")) := trivial
  have hunknown : Error.IsReturned (.notFound (.escrow "1")) := trivial
  exact ⟨hinitiate, (failures_traceless {} v hspent).2.2 m hinitiate,
    hcancel, (failures_traceless {} v hmissing).1 _ hcancel,
    hclaim, (failures_traceless {} v hunknown).2.1 _ hclaim⟩

/-- Once the counter is spent an opening fails, and yet the funds are in custody. -/
theorem funds_kept_by_failure :
    let alice := "maany190vqdjtlpcq27xslcveglfmr4ynfwg7g9637yr"
    let custody := "maany18y7xpnypjny4k23vfxn8f2rsaltv2sxzy55qz0"
    let coin : Coin := ⟨"umaany", ⟨100, by decide⟩⟩
    let m : Initiate := ⟨alice, "dex-1", coin, "", 0, 0⟩
    let v : Vault Balances := ⟨Store.empty.insert Store.Key.counter (List.replicate 8 0xFF),
      (Balances.empty "maany").set alice coin⟩
    let failed := (initiate {} m).after v
    (initiate {} m).result v = .error (.internal .counterOverflow) ∧
      (v.bank.balance alice "umaany", v.bank.balance custody "umaany") = (coin.amount, .zero) ∧
      (failed.bank.balance alice "umaany", failed.bank.balance custody "umaany") =
        (.zero, coin.amount) := by
  decide +kernel

end Custody.Vault
