import Mathlib.Algebra.GroupWithZero.Nat
import Custody.Store.Lemmas

/-!
# Ranges and totals

A range depends on the keys in it only, and a sum over the entries changes with an insertion by what
the new entry counts for, less what the old one did.
-/

namespace Custody.Store

/-! ## Ranges -/

/-- The part of a store that lies under the chosen keys. -/
def restrict (s : Store) (keep : Bytes → Bool) : Store :=
  ⟨s.entries.filter fun e => keep e.1, s.sorted.filter _⟩

theorem get_restrict (s : Store) (keep : Bytes → Bool) (key : Bytes) :
    (s.restrict keep).get key = if keep key then s.get key else none := by
  apply Option.ext
  intro value
  rw [← mem_entries_iff, restrict, List.mem_filter, mem_entries_iff]
  by_cases hkeep : keep key
  · rw [if_pos hkeep]
    exact and_iff_left hkeep
  · rw [if_neg hkeep]
    constructor
    · intro h
      exact absurd h.2 hkeep
    · intro h
      cases h

theorem range_eq_restrict (s : Store) (low high : Bytes) :
    s.range low high = (s.restrict fun key => ¬ key < low ∧ key < high).entries := rfl

/-- Stores that agree on the keys of a range have the same range. -/
theorem range_congr {s t : Store} {low high : Bytes}
    (h : ∀ key, ¬ key < low → key < high → s.get key = t.get key) :
    s.range low high = t.range low high := by
  rw [range_eq_restrict, range_eq_restrict]
  congr 1
  apply ext
  intro key
  rw [get_restrict, get_restrict]
  split
  · rename_i hkey
    obtain ⟨hlow, hhigh⟩ := of_decide_eq_true hkey
    exact h key hlow hhigh
  · rfl

/-! ## Totals -/

/-- The sum of what the entries count for. -/
def total (f : Bytes × Bytes → Nat) (s : Store) : Nat := (s.entries.map f).sum

theorem sum_insertEntry (f : Bytes × Bytes → Nat) (key value : Bytes)
    {entries : List (Bytes × Bytes)} (hsorted : entries.Pairwise fun a b => a.1 < b.1) :
    ((insertEntry key value entries).map f).sum +
        ((entries.lookup key).map fun old => f (key, old)).getD 0 =
      (entries.map f).sum + f (key, value) := by
  induction entries with
  | nil => simp [insertEntry]
  | cons x rest ih =>
      obtain ⟨habove, hsorted⟩ := List.pairwise_cons.1 hsorted
      rw [insertEntry, lookup_cons]
      split
      · rename_i hfirst
        have hne : key ≠ x.1 := by
          intro h
          exact List.lt_irrefl x.1 (h ▸ hfirst)
        have hnone : rest.lookup key = none :=
          lookup_eq_none fun e he => List.lt_trans hfirst (habove e he)
        rw [if_neg hne, hnone]
        simp only [List.map_cons, List.sum_cons, Option.map_none, Option.getD_none]
        omega
      · split
        · rename_i hlater
          have hne : key ≠ x.1 := by
            intro h
            exact List.lt_irrefl key (h ▸ hlater)
          have hrest := ih hsorted
          rw [if_neg hne]
          simp only [List.map_cons, List.sum_cons]
          omega
        · rename_i hbefore hlater
          have hsame : key = x.1 := eq_of_not_lt hbefore hlater
          have hold : f (key, x.2) = f x := by rw [hsame]
          rw [if_pos hsame]
          simp only [List.map_cons, List.sum_cons, Option.map_some, Option.getD_some, hold]
          omega

/-- The new entry counts, and the one that it replaces does no longer. -/
theorem total_insert (f : Bytes × Bytes → Nat) (s : Store) (key value : Bytes) :
    (s.insert key value).total f + ((s.get key).map fun old => f (key, old)).getD 0 =
      s.total f + f (key, value) :=
  sum_insertEntry f key value s.sorted

/-- An entry that counts for nothing, in the place of none or of another such. -/
theorem total_insert_of_zero {f : Bytes × Bytes → Nat} {key : Bytes} (hf : ∀ value, f (key, value) = 0)
    (s : Store) (value : Bytes) : (s.insert key value).total f = s.total f := by
  have hinsert := total_insert f s key value
  have hold : ((s.get key).map fun old => f (key, old)).getD 0 = 0 := by
    cases s.get key with
    | none => rfl
    | some old => exact hf old
  rw [hold, hf value] at hinsert
  exact hinsert

/-- A sum over a range is a total in which the other entries count for nothing. -/
theorem sum_range (g : Bytes → Nat) (s : Store) (low high : Bytes) :
    ((s.range low high).map fun e => g e.2).sum =
      s.total fun e => if ¬ e.1 < low ∧ e.1 < high then g e.2 else 0 := by
  unfold range total
  induction s.entries with
  | nil => rfl
  | cons x rest ih =>
      rw [List.filter_cons, List.map_cons, List.sum_cons, ← ih]
      by_cases hin : ¬ x.1 < low ∧ x.1 < high
      · simp only [hin, not_false_eq_true, and_self, decide_true, if_true, List.map_cons,
          List.sum_cons]
      · simp only [hin, decide_false, if_false, Bool.false_eq_true, Nat.zero_add]

end Custody.Store
