import Mathlib.Control.Monad.Basic
import Custody.Contract.Basic
import Custody.Proofs.Escrow.Failure

/-!
# Failed calls

A call on the contract that returns an error has written nothing, whatever the store holds. The
funds that an opening took from the bank are those attached to the call, so nothing of the bank
outlives the call either.
-/

namespace Custody.Contract

open Operation (Completes Observes Traceless)

theorem traceless_instantiate (m : Setup) : Traceless (instantiate m) := by
  unfold instantiate
  simp only
  split
  · exact (Observes.throw _).traceless
  · apply Traceless.check (Observes.lift _)
    intro u
    apply Completes.traceless
    apply Completes.modify_bind
    exact Completes.pure _

section Executing

variable {env : Env} {call : Call} {cfg : Config}

/-- Of the vault only the store outlives the call. -/
theorem traceless_withFunds {x : Operation (Vault AttachedFunds) α}
    (hx : ∀ v e, x.result v = .error e → e.IsReturned → (x.after v).store = v.store) :
    Traceless (withFunds env call x) := by
  intro s e herror hreturned
  have hkept := hx ⟨s, { contract := env.contract, call }⟩ e
  unfold Operation.result at herror hkept
  unfold Operation.after at hkept ⊢
  unfold withFunds at herror ⊢
  cases h : x ⟨s, { contract := env.contract, call }⟩ with
  | ok a v =>
      rw [h] at herror
      cases herror
  | error f v =>
      rw [h] at herror hkept
      obtain rfl := Except.error.inj herror
      exact hkept rfl hreturned

theorem traceless_initiate (m : Initiate) : Traceless (initiate env call cfg m) := by
  unfold initiate
  apply Traceless.check (Observes.lift _)
  intro u
  apply Traceless.finish
  · apply traceless_withFunds
    intro v e herror _
    exact Vault.store_of_initiate_failure herror
  · rintro ⟨id, transfers⟩
    exact Completes.pure _

theorem traceless_cancel (m : Cancel) : Traceless (cancel env call cfg m) := by
  unfold cancel
  apply Traceless.check (Observes.lift _)
  intro u
  apply Traceless.check (Observes.lift _)
  intro u'
  apply Traceless.finish
  · apply traceless_withFunds
    intro v e herror hreturned
    rw [Vault.traceless_cancel cfg m v e herror hreturned]
  · rintro ⟨x, transfers⟩
    exact Completes.pure _

theorem traceless_claim (m : Claim) : Traceless (claim env call cfg m) := by
  unfold claim
  apply Traceless.check (Observes.lift _)
  intro u
  apply Traceless.check (Observes.lift _)
  intro u'
  apply Traceless.finish
  · apply traceless_withFunds
    intro v e herror hreturned
    rw [Vault.traceless_claim m v e herror hreturned]
  · rintro ⟨x, transfers⟩
    exact Completes.pure _

theorem traceless_execute (command : Command) : Traceless (execute env call command) := by
  unfold execute
  apply Traceless.check (Observes.reading _)
  intro cfg
  cases command with
  | initiate chain amount recipient expiryHeight expiryTime => exact traceless_initiate _
  | cancel chain denom => exact traceless_cancel _
  | claim escrowId chain => exact traceless_claim _

end Executing

/-- Whatever the store holds, setting up and running a command leave it as it was unless they
succeed. -/
theorem failed_call_unwritten {s : Store} {e : Error} (hreturned : e.IsReturned) :
    (∀ m : Setup, (instantiate m).result s = .error e → (instantiate m).after s = s) ∧
    ∀ (env : Env) (call : Call) (command : Command),
      (execute env call command).result s = .error e → (execute env call command).after s = s := by
  constructor
  · intro m herror
    exact traceless_instantiate m s e herror hreturned
  · intro env call command herror
    exact traceless_execute command s e herror hreturned

/-- A set-up without an address prefix, and an opening with the counter spent: the funds are taken,
but then there is no id to give. -/
theorem failed_call_unwritten_counter_spent :
    let s := (Settings.save .empty {}).insert Store.Key.counter (List.replicate 8 0xFF)
    let env : Env := ⟨1, "contract"⟩
    let coin : Coin := ⟨"umaany", ⟨100, by decide⟩⟩
    let call : Call := ⟨"maany190vqdjtlpcq27xslcveglfmr4ynfwg7g9637yr", [coin]⟩
    let command : Command := .initiate "dex-1" coin none none none
    (instantiate { hrp := some "" }).result s = .error (.invalidRequest .emptyHrp) ∧
      (instantiate { hrp := some "" }).after s = s ∧
      (execute env call command).result s = .error (.internal .counterOverflow) ∧
      (execute env call command).after s = s := by
  intro s env coin call command
  have hsetup : (instantiate { hrp := some "" }).result s =
      .error (.invalidRequest .emptyHrp) := by
    decide +kernel
  have hexecute : (execute env call command).result s = .error (.internal .counterOverflow) := by
    decide +kernel
  have hrejected : Error.IsReturned (.invalidRequest .emptyHrp) := trivial
  have hspent : Error.IsReturned (.internal .counterOverflow) := trivial
  exact ⟨hsetup, (failed_call_unwritten hrejected).1 _ hsetup,
    hexecute, (failed_call_unwritten hspent).2 env call command hexecute⟩

end Custody.Contract
