import Mathlib.Control.Monad.Basic
import Custody.Proofs.Bank.Attached
import Custody.Proofs.Bank.Sending

/-!
# What goes through the bank of a call

However often coins are sent through the bank of a call, and in whatever order: the attached funds
are taken in once at most, from the caller, and everything else that succeeds goes out of the
contract's own account and is queued in its turn.
-/

namespace Custody

namespace Sending

/-- How a sending stands in the queue. -/
def transfer (x : Sending) : Transfer := ⟨x.target, [x.coin]⟩

/-- The caller pays all that is attached to the call into the contract's account. -/
def Deposits (contract : Address) (call : Call) (x : Sending) : Prop :=
  x.target = contract ∧ x.source = call.sender ∧ call.funds = [x.coin] ∧ 0 < x.coin.amount.val

/-- The contract pays somebody else. -/
def Withdraws (contract : Address) (x : Sending) : Prop :=
  x.target ≠ contract ∧ x.source = contract

end Sending

namespace AttachedFunds

open Sending (Deposits Withdraws made after)

variable {contract : Address} {call : Call} {done : List Sending} {b b' : AttachedFunds}
  {x : Sending}

/-- The bank of the call after the sendings that have been made so far. -/
structure Accounts (contract : Address) (call : Call) (done : List Sending) (b : AttachedFunds) :
    Prop where
  contract_eq : b.contract = contract
  call_eq : b.call = call
  deposits : done.countP (·.target = contract) = if b.deposited then 1 else 0
  queue_eq : b.queue = (done.filter (·.target ≠ contract)).map Sending.transfer
  lawful : ∀ x ∈ done, Deposits contract call x ∨ Withdraws contract x

namespace Accounts

theorem start : Accounts contract call [] { contract, call } where
  contract_eq := rfl
  call_eq := rfl
  deposits := rfl
  queue_eq := rfl
  lawful _ hx := absurd hx List.not_mem_nil

theorem deposited_eq_false_iff (h : Accounts contract call done b) :
    b.deposited = false ↔ ∀ x ∈ done, x.target ≠ contract := by
  have hcount := h.deposits
  have hnone : (∀ x ∈ done, x.target ≠ contract) ↔ done.countP (·.target = contract) = 0 := by
    simp [List.countP_eq_zero]
  rw [hnone, hcount]
  cases b.deposited <;> simp

/-- A sending is met exactly if it is a deposit, and the first one, or a withdrawal. -/
theorem send_isOk_iff (h : Accounts contract call done b) :
    (∃ b', Custodian.send b x.source x.target x.coin = .ok b') ↔
      Deposits contract call x ∧ (∀ y ∈ done, y.target ≠ contract) ∨ Withdraws contract x := by
  rw [← h.deposited_eq_false_iff]
  obtain ⟨rfl, rfl, -, -, -⟩ := h
  simp only [send_eq_ok, deposit_eq_ok, withdraw_eq_ok, Deposits, Withdraws]
  constructor
  · rintro ⟨b', ⟨htarget, hsource, hfirst, hfunds, hpos, -⟩ | ⟨htarget, hsource, -⟩⟩
    · exact .inl ⟨⟨htarget, hsource, hfunds, hpos⟩, hfirst⟩
    · exact .inr ⟨htarget, hsource⟩
  · rintro (⟨⟨htarget, hsource, hfunds, hpos⟩, hfirst⟩ | ⟨htarget, hsource⟩)
    · exact ⟨_, .inl ⟨htarget, hsource, hfirst, hfunds, hpos, rfl⟩⟩
    · exact ⟨_, .inr ⟨htarget, hsource, rfl⟩⟩

theorem send (h : Accounts contract call done b)
    (hsend : Custodian.send b x.source x.target x.coin = .ok b') :
    Accounts contract call (done ++ [x]) b' := by
  have hlawful : ∀ y ∈ done ++ [x], Deposits contract call y ∨ Withdraws contract y := by
    intro y hy
    rcases List.mem_append.1 hy with hold | hnew
    · exact h.lawful y hold
    · obtain rfl := List.mem_singleton.1 hnew
      exact (h.send_isOk_iff.1 ⟨b', hsend⟩).imp_left And.left
  obtain ⟨rfl, rfl, hdeposits, hqueue, -⟩ := h
  rcases send_eq_ok.1 hsend with ⟨htarget, hdeposit⟩ | ⟨htarget, hwithdraw⟩
  · obtain ⟨-, hfirst, -, -, rfl⟩ := deposit_eq_ok.1 hdeposit
    refine ⟨rfl, rfl, ?_, ?_, hlawful⟩
    · rw [List.countP_append, hdeposits, hfirst]
      simp [htarget]
    · rw [List.filter_append, List.map_append, ← hqueue]
      simp [htarget]
  · obtain ⟨-, rfl⟩ := withdraw_eq_ok.1 hwithdraw
    refine ⟨rfl, rfl, ?_, ?_, hlawful⟩
    · rw [List.countP_append, hdeposits]
      simp [htarget]
    · rw [List.filter_append, List.map_append, ← hqueue]
      simp [htarget, Sending.transfer]

theorem run (xs : List Sending) {v : Vault AttachedFunds} (h : Accounts contract call done v.bank) :
    Accounts contract call (done ++ made xs v) (after xs v).bank := by
  induction xs generalizing done v with
  | nil =>
      rw [made, List.append_nil]
      exact h
  | cons x rest ih =>
      rw [Sending.after_cons]
      cases hsend : Custodian.send v.bank x.source x.target x.coin with
      | ok bank =>
          have hrun := Sending.run_ok hsend
          rw [Sending.made_ok hrun, Operation.after_ok hrun, List.append_cons]
          exact ih (h.send hsend)
      | error e =>
          have hrun := Sending.run_error hsend
          rw [Sending.made_error hrun, Operation.after_error hrun]
          exact ih h

end Accounts

/-- In any sequence of sendings through the bank of one call: one at most succeeds that goes to the
contract, and it is of the one coin attached to the call, which is not zero, and from the caller.
The transfers queued are the other sendings that succeed, in order, each out of the contract's
account and to another one. What comes next succeeds exactly under these conditions, and is without
effect otherwise. -/
theorem attached_spent_once (s : Store) (contract : Address) (call : Call) (xs : List Sending) :
    let opening : Vault AttachedFunds := ⟨s, { contract, call }⟩
    let v := after xs opening
    let done := made xs opening
    (done.countP (·.target = contract) ≤ 1 ∧
      ∀ x ∈ done, x.target = contract →
        x.source = call.sender ∧ call.funds = [x.coin] ∧ 0 < x.coin.amount.val) ∧
    (v.bank.queue = (done.filter (·.target ≠ contract)).map Sending.transfer ∧
      ∀ x ∈ done, x.target ≠ contract → x.source = contract) ∧
    ∀ next : Sending,
      (next.run.result v = .ok () ↔
        Deposits contract call next ∧ (∀ x ∈ done, x.target ≠ contract) ∨
          Withdraws contract next) ∧
      ∀ e, next.run.result v = .error e → next.run.after v = v := by
  intro opening v done
  have h : Accounts contract call done v.bank := Accounts.start.run (v := opening) xs
  refine ⟨⟨?_, ?_⟩, ⟨h.queue_eq, ?_⟩, ?_⟩
  · rw [h.deposits]
    split <;> decide
  · intro x hx htarget
    rcases h.lawful x hx with hdeposit | hwithdraw
    · exact hdeposit.2
    · exact absurd htarget hwithdraw.1
  · intro x hx htarget
    rcases h.lawful x hx with hdeposit | hwithdraw
    · exact absurd hdeposit.1 htarget
    · exact hwithdraw.2
  · intro next
    exact ⟨Sending.result_eq_ok.trans h.send_isOk_iff, fun e => Sending.after_refused⟩

/-- The contract calls itself: what it attaches goes in once, though it is its own target. -/
theorem attached_spent_once_by_itself :
    let coin : Coin := ⟨"umaany", ⟨5, by decide⟩⟩
    let call : Call := ⟨"contract", [coin]⟩
    let deposit : Sending := ⟨"contract", "contract", coin⟩
    let xs : List Sending := [⟨"contract", "alice", coin⟩, deposit, ⟨"bob", "alice", coin⟩]
    let v := after xs (⟨.empty, { contract := "contract", call }⟩ : Vault AttachedFunds)
    v.bank.queue = [⟨"alice", [coin]⟩] ∧
      deposit.run.result v = .error (.payment .alreadyDeposited) ∧ deposit.run.after v = v := by
  intro coin call deposit xs v
  have hrefused : deposit.run.result v = .error (.payment .alreadyDeposited) := by decide +kernel
  obtain ⟨-, ⟨hqueue, -⟩, hnext⟩ := attached_spent_once .empty "contract" call xs
  exact ⟨hqueue, hrefused, (hnext deposit).2 _ hrefused⟩

end AttachedFunds

end Custody
