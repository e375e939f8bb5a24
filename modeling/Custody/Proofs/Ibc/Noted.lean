import Custody.Proofs.Escrow.Footprint
import Custody.Proofs.Ibc.Passage
import Custody.Proofs.Ibc.Run

/-!
# What a step leaves behind outside the ledger

Operations on escrows write to the ledger only, and a packet is at most paid out. So what is read of
the rest of the store changes by what layers note on a callback, whatever comes of the step.
-/

namespace Custody.Ibc

open Operation (Keeps)

variable {β ω γ : Type}

/-- The application leaves what is read of the store alone. -/
def Spares (read : Store → γ) (app : Application β ω) : Prop :=
  ∀ c w, read ((app c).after w).vault.store = read w.vault.store

theorem spares_recorder (read : Store → γ) (refuses : Bool) :
    Spares read (recorder refuses : Application β (List Callback)) := by
  intro c w
  rw [after_recorder]

/-- The store once all layers have noted what a step says to them. -/
def Step.noted (cfg : Config) : Step → Store → Store
  | .callback layers c => notedBy cfg c layers
  | _ => id

variable [Custodian β] {cfg : Config} {app : Application β ω} {read : Store → γ}

/-- A packet has no part in what is read, wherever in the stack it ends. -/
theorem read_arrival (happ : Spares read app) (layers : List Layer) (p : Packet)
    (relayer : Address) (w : World β ω) :
    read ((stack cfg layers app (.receive p relayer)).after w).vault.store =
      read w.vault.store := by
  have hkeeps : Keeps (fun w' => read w'.vault.store = read w.vault.store)
      (stack cfg layers app (.receive p relayer)) := by
    induction layers with
    | nil =>
        intro w' hw'
        exact (happ _ w').trans hw'
    | cons layer layers ih =>
        cases layer with
        | transfer d => exact keeps_forward (fun _ _ _ _ _ _ _ _ _ _ hw' => hw') ih
        | account d host => exact ih
  exact hkeeps w rfl

theorem read_stack (happ : Spares read app) (layers : List Layer) (c : Callback)
    (w : World β ω) :
    read ((stack cfg layers app c).after w).vault.store =
      read (notedBy cfg c layers w.vault.store) := by
  by_cases harrives : c.arrives
  · obtain ⟨p, relayer, rfl⟩ := Callback.eq_of_arrives harrives
    rw [read_arrival happ, notedBy_arrival]
  · obtain ⟨requests, hstack⟩ := stack_eq cfg layers app harrives w
    rw [Operation.after, hstack, ← Operation.after, happ]
    rfl

theorem read_step (happ : Spares read app)
    (hread : ∀ s t, Ledger.SameOutside s t → read s = read t) (step : Step) (w : World β ω) :
    read (step.after cfg app w).vault.store = read (step.noted cfg w.vault.store) := by
  have hledger : ∀ {α : Type} {x : Operation (Vault β) α},
      Ledger.SameOutside (x.after w.vault).store w.vault.store →
      read ((World.onVault x).after w).vault.store = read w.vault.store := by
    intro α x hsame
    rw [vault_onVault]
    exact hread _ _ hsame
  cases step with
  | initiate m hmemory => exact hledger (Vault.sameOutside_initiate cfg m w.vault)
  | cancel m => exact hledger (Vault.sameOutside_cancel cfg m w.vault)
  | claim m => exact hledger (Vault.sameOutside_claim m w.vault)
  | callback layers c => exact read_stack happ layers c w

end Custody.Ibc
