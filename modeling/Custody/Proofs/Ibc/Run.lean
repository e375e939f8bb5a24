import Custody.Proofs.Ibc.Layers

/-!
# Runs

The operations on escrows and the callbacks of channels and packets, in any order, on one world.
What a step did before it failed stays.
-/

namespace Custody.Ibc

variable {β ω : Type}

/-- One thing that happens to a world. A callback goes through any stack of layers. -/
inductive Step where
  | initiate (m : Initiate) (inMemory : m.Addressable)
  | cancel (m : Cancel)
  | claim (m : Claim)
  | callback (layers : List Layer) (c : Callback)

/-- The world after a step, whether or not it failed. -/
def Step.after [Custodian β] (cfg : Config) (app : Application β ω) : Step → World β ω → World β ω
  | .initiate m _ => (World.onVault (Vault.initiate cfg m)).after
  | .cancel m => (World.onVault (Vault.cancel cfg m)).after
  | .claim m => (World.onVault (Vault.claim m)).after
  | .callback layers c => (stack cfg layers app c).after

/-- The world after all steps. -/
def run [Custodian β] (cfg : Config) (app : Application β ω) (steps : List Step)
    (w : World β ω) : World β ω :=
  steps.foldl (fun w step => step.after cfg app w) w

theorem vault_onVault (x : Operation (Vault β) α) (w : World β ω) :
    ((World.onVault x).after w).vault = x.after w.vault := by
  unfold World.onVault
  rw [Operation.after_within]

theorem keeps_onVault {P : Vault β → Prop} {x : Operation (Vault β) α} (hx : Operation.Keeps P x) :
    Operation.Keeps (fun w : World β ω => P w.vault) (World.onVault x) := by
  intro w hw
  rw [vault_onVault]
  exact hx w.vault hw

/-- The application leaves the keys of the ledger alone. -/
def SparesLedger (app : Application β ω) : Prop :=
  ∀ c w, Ledger.Same ((app c).after w).vault.store w.vault.store

/-- The application leaves the keys of the ledger and the bank alone. -/
structure Bystander (app : Application β ω) : Prop where
  ledger : SparesLedger app
  bank : ∀ c w, ((app c).after w).vault.bank = w.vault.bank

theorem after_recorder (refuses : Bool) (c : Callback) (w : World β (List Callback)) :
    ((recorder refuses c).after w).vault = w.vault := by
  cases refuses <;> cases c <;> rfl

theorem sparesLedger_recorder (refuses : Bool) :
    SparesLedger (recorder refuses : Application β (List Callback)) := by
  intro c w
  rw [after_recorder]
  exact Ledger.Same.refl _

theorem bystander_recorder (refuses : Bool) :
    Bystander (recorder refuses : Application β (List Callback)) where
  ledger := sparesLedger_recorder refuses
  bank c w := by rw [after_recorder]

/-- Where a list with a new end is split: at the end, or before it. -/
theorem concat_eq_append_cons {xs past later : List α} {x y : α}
    (h : xs ++ [x] = past ++ y :: later) :
    later = [] ∧ y = x ∧ past = xs ∨ ∃ rest, later = rest ++ [x] ∧ xs = past ++ y :: rest := by
  rcases List.eq_nil_or_concat later with rfl | ⟨rest, z, rfl⟩
  · obtain ⟨rfl, hlast⟩ := List.append_inj' h rfl
    cases hlast
    exact .inl ⟨rfl, rfl, rfl⟩
  · rw [List.concat_eq_append, ← List.cons_append, ← List.append_assoc] at h
    obtain ⟨rfl, hlast⟩ := List.append_inj' h rfl
    cases hlast
    exact .inr ⟨rest, List.concat_eq_append, rfl⟩

variable [Custodian β] {cfg : Config} {app : Application β ω} {P : World β ω → Prop}

theorem run_concat (steps : List Step) (step : Step) (w : World β ω) :
    run cfg app (steps ++ [step]) w = step.after cfg app (run cfg app steps w) := by
  unfold run
  rw [List.foldl_append]
  rfl

/-- A property that every step keeps holds after the run. -/
theorem run_keeps {steps : List Step} (hstep : ∀ step ∈ steps, ∀ w, P w → P (step.after cfg app w))
    {w : World β ω} (hw : P w) : P (run cfg app steps w) := by
  unfold run
  induction steps generalizing w with
  | nil => exact hw
  | cons step steps ih =>
      rw [List.foldl_cons]
      apply ih
      · intro next hnext
        exact hstep next (List.mem_cons_of_mem _ hnext)
      · exact hstep step List.mem_cons_self w hw

end Custody.Ibc
