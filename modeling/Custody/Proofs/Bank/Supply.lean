import Mathlib.Algebra.BigOperators.Finprod
import Mathlib.Algebra.GroupWithZero.Nat
import Mathlib.Algebra.Order.BigOperators.Group.List
import Mathlib.Algebra.Order.Group.Nat
import Custody.Proofs.Bank.Balances

/-!
# The supply of a denomination

What all accounts hold of a denomination together. Transfers leave it as it is, and while it is
below the limit of an amount they are refused for lack of funds only.
-/

namespace Custody

namespace Table

variable {κ ν : Type} [DecidableEq κ]

/-- The sum of what the entries count for. -/
def total (f : κ × ν → Nat) (t : Table κ ν) : Nat := (t.entries.map f).sum

theorem sum_filter_ne (f : κ × ν → Nat) (key : κ) {entries : List (κ × ν)}
    (hdistinct : (entries.map (·.1)).Nodup) :
    ((entries.filter (·.1 ≠ key)).map f).sum +
        ((entries.lookup key).map fun old => f (key, old)).getD 0 = (entries.map f).sum := by
  induction entries with
  | nil => rfl
  | cons x rest ih =>
      rw [List.map_cons, List.nodup_cons] at hdistinct
      obtain ⟨hfresh, hdistinct⟩ := hdistinct
      rw [lookup_cons]
      by_cases hx : key = x.1
      · subst hx
        have hothers : rest.filter (·.1 ≠ x.1) = rest := by
          rw [List.filter_eq_self]
          intro y hy
          rw [decide_eq_true_eq]
          intro hsame
          exact hfresh (hsame ▸ List.mem_map_of_mem hy)
        rw [List.filter_cons_of_neg (by simp), hothers, if_pos rfl, List.map_cons, List.sum_cons]
        exact Nat.add_comm _ _
      · rw [List.filter_cons_of_pos (by simpa using Ne.symm hx), if_neg hx, List.map_cons,
          List.map_cons, List.sum_cons, List.sum_cons, Nat.add_assoc, ih hdistinct]

/-- The new entry counts, and the one that it replaces does no longer. -/
theorem total_insert (f : κ × ν → Nat) (t : Table κ ν) (key : κ) (value : ν) :
    (t.insert key value).total f + ((t.get? key).map fun old => f (key, old)).getD 0 =
      t.total f + f (key, value) := by
  have hothers := sum_filter_ne f key t.distinct
  simp only [total, insert, get?, List.map_cons, List.sum_cons]
  omega

end Table

namespace Balances

/-- What the entry of an account counts for in the supply of a denomination. -/
def weight (denom : String) (e : (Address × String) × Amount) : Nat :=
  if e.1.2 = denom then e.2.val else 0

/-- What all accounts hold of a denomination. -/
def supply (b : Balances) (denom : String) : Nat := b.sheet.total (weight denom)

/-- The accounts that have an entry in a denomination. -/
def holders (b : Balances) (denom : String) : List Address :=
  (b.sheet.entries.filter (·.1.2 = denom)).map (·.1.1)

/-- Under one denomination an account has one entry only. -/
theorem nodup_holders (b : Balances) (denom : String) : (b.holders denom).Nodup := by
  have hentries : (b.sheet.entries.filter (·.1.2 = denom)).Nodup :=
    (List.Nodup.of_map _ b.sheet.distinct).filter _
  refine hentries.map_on ?_
  intro x hx y hy hsame
  rw [List.mem_filter, decide_eq_true_eq] at hx hy
  exact List.inj_on_of_nodup_map b.sheet.distinct hx.1 hy.1
    (Prod.ext hsame (hx.2.trans hy.2.symm))

theorem mem_holders_of_balance {b : Balances} {a : Address} {denom : String}
    (h : (b.balance a denom).val ≠ 0) : a ∈ b.holders denom := by
  by_contra hnone
  have habsent : b.sheet.get? (a, denom) = none := by
    apply Table.get?_of_not_mem
    rintro ⟨key, amount⟩ he rfl
    exact hnone (List.mem_map.2 ⟨_, List.mem_filter.2 ⟨he, decide_eq_true rfl⟩, rfl⟩)
  rw [balance, habsent] at h
  exact h rfl

theorem balance_of_mem {b : Balances} {a : Address} {denom : String} {amount : Amount}
    (h : ((a, denom), amount) ∈ b.sheet.entries) : b.balance a denom = amount := by
  rw [balance, b.sheet.get?_of_mem h]
  rfl

theorem supply_eq_sum_holders (b : Balances) (denom : String) :
    b.supply denom = ((b.holders denom).map fun a => (b.balance a denom).val).sum := by
  have hentries : b.supply denom =
      ((b.sheet.entries.filter (·.1.2 = denom)).map (·.2.val)).sum := by
    unfold supply Table.total weight
    rw [List.sum_map_ite, List.sum_map_zero, Nat.add_zero]
  rw [hentries, holders, List.map_map]
  congr 1
  apply List.map_congr_left
  rintro ⟨⟨a, d⟩, amount⟩ hmem
  obtain ⟨hentry, hdenom⟩ := List.mem_filter.1 hmem
  obtain rfl : d = denom := of_decide_eq_true hdenom
  exact congrArg Amount.val (balance_of_mem hentry).symm

/-- The supply is what the accounts have, all of them, an account without an entry nothing. -/
theorem supply_eq_finsum (b : Balances) (denom : String) :
    b.supply denom = ∑ᶠ a, (b.balance a denom).val := by
  have hsupport : Function.support (fun a => (b.balance a denom).val) ⊆
      (b.holders denom).toFinset := by
    intro a ha
    exact List.mem_toFinset.2 (mem_holders_of_balance ha)
  rw [finsum_eq_finsetSum_of_support_subset _ hsupport, List.sum_toFinset _ (b.nodup_holders denom)]
  exact b.supply_eq_sum_holders denom

theorem supply_set (b : Balances) (account : Address) (c : Coin) (denom : String) :
    (b.set account c).supply denom +
        (if c.denom = denom then (b.balance account c.denom).val else 0) =
      b.supply denom + (if c.denom = denom then c.amount.val else 0) := by
  have hinsert := Table.total_insert (weight denom) b.sheet (account, c.denom) c.amount
  have hold : ((b.sheet.get? (account, c.denom)).map
        fun old => weight denom ((account, c.denom), old)).getD 0 =
      if c.denom = denom then (b.balance account c.denom).val else 0 := by
    unfold balance weight
    cases b.sheet.get? (account, c.denom) with
    | none =>
        split
        · rfl
        · rfl
    | some old => rfl
  rw [hold] at hinsert
  exact hinsert

/-- Whatever the denomination, no more than all entries together. -/
theorem supply_le_total (b : Balances) (denom : String) :
    b.supply denom ≤ b.sheet.total fun e => e.2.val := by
  apply List.sum_le_sum
  intro e _
  unfold weight
  split
  · exact Nat.le_refl _
  · exact Nat.zero_le _

theorem balance_le_supply (b : Balances) (a : Address) (denom : String) :
    (b.balance a denom).val ≤ b.supply denom := by
  have hset := supply_set b a ⟨denom, .zero⟩ denom
  simp only [if_true] at hset
  have hzero : Amount.zero.val = 0 := rfl
  omega

/-- Two accounts hold no more than all of them. -/
theorem balances_le_supply (b : Balances) {a a' : Address} (hother : a ≠ a') (denom : String) :
    (b.balance a denom).val + (b.balance a' denom).val ≤ b.supply denom := by
  -- Once the first account is emptied, the second still counts in what is left.
  have hset := supply_set b a ⟨denom, .zero⟩ denom
  simp only [if_true] at hset
  have hsame : (b.set a ⟨denom, .zero⟩).balance a' denom = b.balance a' denom := by
    rw [balance_set, if_neg fun h => hother h.1.symm]
  have hrest := balance_le_supply (b.set a ⟨denom, .zero⟩) a' denom
  rw [hsame] at hrest
  have hzero : Amount.zero.val = 0 := rfl
  omega

theorem supply_of_send {b b' : Balances} {source target : Address} {c : Coin}
    (h : b.send source target c = .ok b') (denom : String) : b'.supply denom = b.supply denom := by
  obtain ⟨henough, ⟨-, rfl⟩ | ⟨hother, received, hreceived, rfl⟩⟩ := send_cases h
  · rfl
  · have hsum := add?_val hreceived
    have hleft : ((b.balance source c.denom).sub c.amount).val =
      (b.balance source c.denom).val - c.amount.val := rfl
    generalize (b.balance source c.denom).sub c.amount = left at hleft
    have hkept : (b.set source ⟨c.denom, left⟩).balance target c.denom =
        b.balance target c.denom := by
      rw [balance_set]
      exact if_neg fun h => hother h.1.symm
    have htaken := supply_set b source ⟨c.denom, left⟩ denom
    have hgiven := supply_set (b.set source ⟨c.denom, left⟩) target ⟨c.denom, received⟩ denom
    rw [hkept] at hgiven
    by_cases hdenom : c.denom = denom
    · simp only [if_pos hdenom] at htaken hgiven
      omega
    · simp only [if_neg hdenom] at htaken hgiven
      omega

/-- What an account has it can pay, to any account. -/
theorem send_of_supply {b : Balances} {source target : Address} {c : Coin}
    (hsupply : b.supply c.denom < Amount.limit) (hcovers : b.Covers source c) :
    ∃ b', b.send source target c = .ok b' := by
  apply send_of_fits hcovers
  by_cases hself : source = target
  · exact .inl hself
  · right
    have hboth := balances_le_supply b hself c.denom
    unfold Covers at hcovers
    omega

end Balances

end Custody
