import Custody.Bank.Attached

/-!
# Deposits and withdrawals of a call

A deposit is the one coin attached to the call, and a withdrawal is queued for its target. Neither
does anything else.
-/

namespace Custody

theorem Call.paid_eq_ok {call : Call} {denom : String} {a : Amount} :
    call.paid denom = .ok a ↔ call.funds = [⟨denom, a⟩] ∧ 0 < a.val := by
  constructor
  · intro h
    unfold Call.paid at h
    split at h
    · cases h
    · rename_i c hfunds
      split at h
      · cases h
      · split at h
        · cases h
        · rename_i hpos hdenom
          cases h
          rw [hfunds, ← Decidable.not_not.1 hdenom]
          exact ⟨rfl, Nat.pos_of_ne_zero hpos⟩
    · cases h
  · rintro ⟨hfunds, hpos⟩
    unfold Call.paid
    rw [hfunds]
    simp only [if_neg (Nat.ne_of_gt hpos), ne_eq, not_true, if_false]

namespace AttachedFunds

variable {b b' : AttachedFunds} {source target : Address} {c : Coin}

theorem deposit_eq_ok : b.deposit source c = .ok b' ↔
    source = b.call.sender ∧ b.deposited = false ∧ b.call.funds = [c] ∧ 0 < c.amount.val ∧
      b' = { b with deposited := true } := by
  constructor
  · intro h
    unfold deposit at h
    split at h
    · cases h
    · rename_i hsource
      split at h
      · cases h
      · rename_i hfirst
        split at h
        · cases h
        · rename_i paid hpaid
          split at h
          · rename_i hexact
            subst hexact
            obtain ⟨hfunds, hpos⟩ := Call.paid_eq_ok.1 hpaid
            cases h
            exact ⟨Decidable.not_not.1 hsource, eq_false_of_ne_true hfirst, hfunds, hpos, rfl⟩
          · cases h
  · rintro ⟨hsource, hfirst, hfunds, hpos, rfl⟩
    have hpaid : b.call.paid c.denom = .ok c.amount := Call.paid_eq_ok.2 ⟨hfunds, hpos⟩
    unfold deposit
    rw [if_neg (not_not_intro hsource), hfirst, hpaid]
    simp only [Bool.false_eq_true, if_false, if_true]

theorem withdraw_eq_ok : b.withdraw source target c = .ok b' ↔
    source = b.contract ∧ b' = { b with queue := b.queue ++ [⟨target, [c]⟩] } := by
  unfold withdraw
  by_cases hsource : source = b.contract
  · rw [if_neg (not_not_intro hsource), Except.ok.injEq, eq_comm]
    exact (and_iff_right hsource).symm
  · rw [if_pos hsource]
    exact iff_of_false (fun h => nomatch h) fun h => hsource h.1

/-- A transfer is a deposit if it goes to the contract, and otherwise a withdrawal. -/
theorem send_eq_ok : Custodian.send b source target c = .ok b' ↔
    target = b.contract ∧ b.deposit source c = .ok b' ∨
      target ≠ b.contract ∧ b.withdraw source target c = .ok b' := by
  change b.send source target c = .ok b' ↔ _
  unfold send
  by_cases htarget : target = b.contract
  · simp [htarget]
  · simp [htarget]

theorem send_ok (h : Custodian.send b source target c = .ok b') :
    target = b.contract ∧ source = b.call.sender ∧ b.call.funds = [c] ∧
        b' = { b with deposited := true } ∨
      target ≠ b.contract ∧ b' = { b with queue := b.queue ++ [⟨target, [c]⟩] } := by
  rcases send_eq_ok.1 h with ⟨htarget, hdeposit⟩ | ⟨htarget, hwithdraw⟩
  · obtain ⟨hsource, -, hfunds, -, hb'⟩ := deposit_eq_ok.1 hdeposit
    exact .inl ⟨htarget, hsource, hfunds, hb'⟩
  · exact .inr ⟨htarget, (withdraw_eq_ok.1 hwithdraw).2⟩

end AttachedFunds

end Custody
