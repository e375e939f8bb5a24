import Custody.Proofs.Escrow.Outcome

/-!
# Sendings

Coins sent through the bank of a vault, one sending after the other. One that is refused leaves the
vault as it was, and the next is tried.
-/

namespace Custody

/-- A coin to be sent from one account to another. -/
structure Sending where
  source : Address
  target : Address
  coin : Coin
  deriving DecidableEq

namespace Sending

variable {β : Type} [Custodian β]

def run (x : Sending) : Operation (Vault β) Unit := Vault.send x.source x.target x.coin

/-- The vault after all of the sendings, whether or not they succeed. -/
def after (xs : List Sending) (v : Vault β) : Vault β := xs.foldl (fun v x => x.run.after v) v

/-- The sendings that succeed, in their order. -/
def made : List Sending → Vault β → List Sending
  | [], _ => []
  | x :: rest, v =>
    match x.run.result v with
    | .ok () => x :: made rest (x.run.after v)
    | .error _ => made rest (x.run.after v)

variable {x : Sending} {v : Vault β}

theorem after_cons (x : Sending) (rest : List Sending) (v : Vault β) :
    after (x :: rest) v = after rest (x.run.after v) := rfl

theorem run_ok {bank : β} (h : Custodian.send v.bank x.source x.target x.coin = .ok bank) :
    x.run v = .ok () { v with bank } :=
  Vault.send_ok h

theorem run_error {e : Error} (h : Custodian.send v.bank x.source x.target x.coin = .error e) :
    x.run v = .error e v :=
  Vault.send_error h

theorem made_ok {rest : List Sending} {v' : Vault β} (h : x.run v = .ok () v') :
    made (x :: rest) v = x :: made rest v' := by
  rw [made, Operation.result_ok h, Operation.after_ok h]

theorem made_error {rest : List Sending} {e : Error} {v' : Vault β} (h : x.run v = .error e v') :
    made (x :: rest) v = made rest v' := by
  rw [made, Operation.result_error h, Operation.after_error h]

theorem result_eq_ok : x.run.result v = .ok () ↔
    ∃ bank, Custodian.send v.bank x.source x.target x.coin = .ok bank := by
  cases hsend : Custodian.send v.bank x.source x.target x.coin with
  | ok bank => exact iff_of_true (Operation.result_ok (run_ok hsend)) ⟨bank, rfl⟩
  | error e =>
      rw [Operation.result_error (run_error hsend)]
      exact iff_of_false (fun h => nomatch h) fun ⟨bank, h⟩ => nomatch h

/-- What is refused changes nothing. -/
theorem after_refused {e : Error} (h : x.run.result v = .error e) : x.run.after v = v := by
  cases hsend : Custodian.send v.bank x.source x.target x.coin with
  | ok bank =>
      rw [result_eq_ok.2 ⟨bank, hsend⟩] at h
      cases h
  | error e => exact Operation.after_error (run_error hsend)

end Sending

end Custody
