import Custody.Proofs.Bank.Sending
import Custody.Proofs.Bank.Supply

/-!
# Sendings between balances

However many sendings there are between the accounts of a balance sheet, and in whatever order: what
all accounts have of a denomination together stays what it is. While that is below the limit of an
amount no balance outgrows it, so a sending is met exactly if its source has the coin.
-/

namespace Custody

namespace Sending

/-- What a sending that is met does to the balances. An account that pays itself has what it had. -/
structure Moves (x : Sending) (before after : Balances) : Prop where
  taken : x.source ≠ x.target → (after.balance x.source x.coin.denom).val + x.coin.amount.val =
    (before.balance x.source x.coin.denom).val
  given : x.source ≠ x.target → (after.balance x.target x.coin.denom).val =
    (before.balance x.target x.coin.denom).val + x.coin.amount.val
  itself : x.source = x.target → after = before
  others : ∀ account denom, (account ≠ x.source ∧ account ≠ x.target) ∨ denom ≠ x.coin.denom →
    after.balance account denom = before.balance account denom

theorem moves_of_send {x : Sending} {before after : Balances}
    (h : before.send x.source x.target x.coin = .ok after) : x.Moves before after where
  taken := Balances.balance_source_of_send h
  given := Balances.balance_target_of_send h
  itself hself := by
    obtain ⟨-, ⟨-, hsame⟩ | ⟨hother, -⟩⟩ := Balances.send_cases h
    · exact hsame
    · exact absurd hself hother
  others _ _ := Balances.balance_other_of_send h

section Running

variable {x : Sending} {v : Vault Balances}

theorem moves_of_result (h : x.run.result v = .ok ()) : x.Moves v.bank (x.run.after v).bank := by
  obtain ⟨bank, hsend⟩ := result_eq_ok.1 h
  rw [Operation.after_ok (run_ok hsend)]
  exact moves_of_send hsend

theorem result_eq_ok_iff_covers (hlimit : v.bank.supply x.coin.denom < Amount.limit) :
    x.run.result v = .ok () ↔ v.bank.Covers x.source x.coin := by
  rw [result_eq_ok]
  constructor
  · rintro ⟨bank, hsend⟩
    exact (Balances.send_cases hsend).1
  · intro hcovers
    exact Balances.send_of_supply hlimit hcovers

/-- There is no other reason to refuse a sending than that its source cannot pay. -/
theorem eq_insufficient_of_result (hlimit : v.bank.supply x.coin.denom < Amount.limit) {e : Error}
    (h : x.run.result v = .error e) :
    e = .payment (.insufficient (v.bank.balance x.source x.coin.denom) x.coin) := by
  have hpoor : ¬ v.bank.Covers x.source x.coin := by
    rw [← result_eq_ok_iff_covers hlimit, h]
    exact nofun
  have hsend : Custodian.send v.bank x.source x.target x.coin =
      .error (.payment (.insufficient (v.bank.balance x.source x.coin.denom) x.coin)) :=
    Balances.send_poor hpoor
  exact Except.error.inj (h.symm.trans (Operation.result_error (run_error hsend)))

/-! ## What all accounts have together -/

theorem supply_after (x : Sending) (v : Vault Balances) (denom : String) :
    (x.run.after v).bank.supply denom = v.bank.supply denom := by
  cases hresult : x.run.result v with
  | ok _ =>
      obtain ⟨bank, hsend⟩ := result_eq_ok.1 hresult
      rw [Operation.after_ok (run_ok hsend)]
      exact Balances.supply_of_send hsend denom
  | error e => rw [after_refused hresult]

theorem supply_after_all (xs : List Sending) (v : Vault Balances) (denom : String) :
    (after xs v).bank.supply denom = v.bank.supply denom := by
  induction xs generalizing v with
  | nil => rfl
  | cons x rest ih =>
      calc (after (x :: rest) v).bank.supply denom
          = (after rest (x.run.after v)).bank.supply denom := by rw [after_cons]
        _ = (x.run.after v).bank.supply denom := ih (x.run.after v)
        _ = v.bank.supply denom := supply_after x v denom

end Running

end Sending

namespace Balances

open Sending (after)

/-- After any sendings between balances that add up, in each denomination, to less than the limit
of an amount: they add up to what they did, whichever accounts have an entry. Whatever is sent next,
between any accounts, nothing aborts, for no sum reaches the limit and no difference falls below
zero. It is met exactly if the source has the coin, and then moves that coin and nothing else. What
is refused changes nothing. -/
theorem supply_conserved {v : Vault Balances} (hlimit : ∀ denom, v.bank.supply denom < Amount.limit)
    (xs : List Sending) :
    let u := after xs v
    (∀ denom, u.bank.supply denom = v.bank.supply denom ∧
      u.bank.supply denom = ∑ᶠ account, (u.bank.balance account denom).val) ∧
    ∀ next : Sending,
      (∀ cause, next.run.result u ≠ .error (.aborted cause)) ∧
      (next.run.result u = .ok () ↔ u.bank.Covers next.source next.coin) ∧
      (∀ e, next.run.result u = .error e → next.run.after u = u) ∧
      (next.run.result u = .ok () → next.Moves u.bank (next.run.after u).bank) := by
  intro u
  have hsupply : ∀ denom, u.bank.supply denom = v.bank.supply denom :=
    Sending.supply_after_all xs v
  refine ⟨fun denom => ⟨hsupply denom, u.bank.supply_eq_finsum denom⟩, ?_⟩
  intro next
  have hnext : u.bank.supply next.coin.denom < Amount.limit := by
    rw [hsupply]
    exact hlimit next.coin.denom
  refine ⟨?_, Sending.result_eq_ok_iff_covers hnext, fun e => Sending.after_refused,
    Sending.moves_of_result⟩
  intro cause haborted
  have hcause := Sending.eq_insufficient_of_result hnext haborted
  cases hcause

/-- One account comes to have all that there is, the largest amount, pays it to itself and then to
another account. Whoever has nothing is refused. -/
theorem supply_conserved_at_limit :
    let most : Coin := ⟨"umaany", ⟨Amount.limit - 2, by decide +kernel⟩⟩
    let one : Coin := ⟨"umaany", ⟨1, by decide +kernel⟩⟩
    let all : Coin := ⟨"umaany", ⟨Amount.limit - 1, by decide +kernel⟩⟩
    let v : Vault Balances := ⟨.empty, ((Balances.empty "maany").set "alice" most).set "bob" one⟩
    let u := after [⟨"alice", "bob", most⟩, ⟨"bob", "bob", all⟩, ⟨"carol", "bob", one⟩] v
    let next : Sending := ⟨"bob", "carol", all⟩
    let other : Sending := ⟨"alice", "bob", one⟩
    (∀ denom, v.bank.supply denom < Amount.limit) ∧
      ∑ᶠ account, (u.bank.balance account "umaany").val = Amount.limit - 1 ∧
      (next.run.result u = .ok () ∧ next.Moves u.bank (next.run.after u).bank) ∧
      other.run.result u = .error (.payment (.insufficient .zero one)) ∧
        other.run.after u = u := by
  intro most one all v u next other
  have hlimit : ∀ denom, v.bank.supply denom < Amount.limit := by
    intro denom
    exact Nat.lt_of_le_of_lt (supply_le_total v.bank denom) (by decide +kernel)
  have hall : v.bank.supply "umaany" = Amount.limit - 1 := by decide +kernel
  have hmet : next.run.result u = .ok () := by decide +kernel
  have hrefused : other.run.result u = .error (.payment (.insufficient .zero one)) := by
    decide +kernel
  obtain ⟨htotal, hsendings⟩ := supply_conserved hlimit
    [⟨"alice", "bob", most⟩, ⟨"bob", "bob", all⟩, ⟨"carol", "bob", one⟩]
  obtain ⟨hsupply, hsum⟩ := htotal "umaany"
  obtain ⟨-, -, -, hmoves⟩ := hsendings next
  obtain ⟨-, -, hsame, -⟩ := hsendings other
  exact ⟨hlimit, hsum.symm.trans (hsupply.trans hall), ⟨hmet, hmoves hmet⟩, hrefused,
    hsame _ hrefused⟩

end Balances

end Custody
