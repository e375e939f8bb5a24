import Custody.Bytes
import Custody.Table

/-!
# The store

A finite map from keys to values, both byte strings, its entries in the byte order of the keys. Each
operation is described through `get`.
-/

namespace Custody

structure Store where
  entries : List (Bytes × Bytes)
  sorted : entries.Pairwise fun a b => a.1 < b.1

namespace Store

def empty : Store := ⟨[], .nil⟩

instance : Inhabited Store := ⟨empty⟩

def get (s : Store) (key : Bytes) : Option Bytes := s.entries.lookup key

def insertEntry (key value : Bytes) : List (Bytes × Bytes) → List (Bytes × Bytes)
  | [] => [(key, value)]
  | e :: rest =>
    if key < e.1 then (key, value) :: e :: rest
    else if e.1 < key then e :: insertEntry key value rest
    else (key, value) :: rest

theorem eq_of_not_lt {a b : Bytes} (h₁ : ¬ a < b) (h₂ : ¬ b < a) : a = b :=
  Std.Trichotomous.trichotomous (r := (· < ·)) a b h₁ h₂

theorem mem_insertEntry {key value : Bytes} {e : Bytes × Bytes} {entries : List (Bytes × Bytes)}
    (h : e ∈ insertEntry key value entries) : e = (key, value) ∨ e ∈ entries := by
  induction entries with
  | nil => simpa [insertEntry] using h
  | cons x rest ih =>
    rw [insertEntry] at h
    split at h
    · simpa using h
    · split at h
      · rcases List.mem_cons.1 h with rfl | h
        · simp
        · rcases ih h with h | h <;> simp [h]
      · rcases List.mem_cons.1 h with h | h <;> simp [h]

theorem sorted_insertEntry {key value : Bytes} {entries : List (Bytes × Bytes)}
    (h : entries.Pairwise fun a b => a.1 < b.1) :
    (insertEntry key value entries).Pairwise fun a b => a.1 < b.1 := by
  induction entries with
  | nil => simp [insertEntry]
  | cons x rest ih =>
    obtain ⟨below, tail⟩ := List.pairwise_cons.1 h
    rw [insertEntry]
    split
    · rename_i first
      refine List.pairwise_cons.2 ⟨fun e he => ?_, h⟩
      rcases List.mem_cons.1 he with rfl | he
      · exact first
      · exact List.lt_trans first (below e he)
    · split
      · rename_i later
        refine List.pairwise_cons.2 ⟨fun e he => ?_, ih tail⟩
        rcases mem_insertEntry he with rfl | he
        · exact later
        · exact below e he
      · rename_i before later
        have same := eq_of_not_lt before later
        exact List.pairwise_cons.2 ⟨fun e he => by simpa [same] using below e he, tail⟩

/-- Sets the value of a key. -/
def insert (s : Store) (key value : Bytes) : Store :=
  ⟨insertEntry key value s.entries, sorted_insertEntry s.sorted⟩

def erase (s : Store) (key : Bytes) : Store :=
  ⟨s.entries.filter (·.1 != key), s.sorted.filter _⟩

/-- The entries from `low` on and below `high`. -/
def range (s : Store) (low high : Bytes) : List (Bytes × Bytes) :=
  s.entries.filter fun e => ¬ e.1 < low ∧ e.1 < high

@[simp] theorem get_empty (key : Bytes) : empty.get key = none := rfl

theorem lookup_insertEntry (key value k : Bytes) (entries : List (Bytes × Bytes)) :
    (insertEntry key value entries).lookup k =
      if k = key then some value else entries.lookup k := by
  induction entries with
  | nil => rw [insertEntry, lookup_cons]
  | cons x rest ih =>
    rw [insertEntry]
    split
    · rw [lookup_cons]
    · split
      · rename_i later
        have ne : x.1 ≠ key := fun e => List.lt_irrefl key (e ▸ later)
        rw [lookup_cons, lookup_cons, ih]
        by_cases hx : k = x.1
        · rw [if_pos hx, if_pos hx, if_neg (hx ▸ ne)]
        · rw [if_neg hx, if_neg hx]
      · rename_i before later
        have same := eq_of_not_lt before later
        rw [lookup_cons, lookup_cons, ← same]
        by_cases h : k = key
        · rw [if_pos h, if_pos h]
        · rw [if_neg h, if_neg h, if_neg h]

theorem get_insert (s : Store) (key value k : Bytes) :
    (s.insert key value).get k = if k = key then some value else s.get k :=
  lookup_insertEntry key value k s.entries

theorem get_erase (s : Store) (key k : Bytes) :
    (s.erase key).get k = if k = key then none else s.get k := by
  simp only [get, erase]
  induction s.entries with
  | nil => simp
  | cons x rest ih =>
    by_cases hx : x.1 = key
    · rw [List.filter_cons_of_neg (by simpa using hx), ih, lookup_cons, hx]
      by_cases h : k = key
      · rw [if_pos h, if_pos h]
      · rw [if_neg h, if_neg h, if_neg h]
    · rw [List.filter_cons_of_pos (by simpa using hx), lookup_cons, lookup_cons, ih]
      by_cases hk : k = x.1
      · rw [if_pos hk, if_pos hk, if_neg (hk ▸ hx)]
      · rw [if_neg hk, if_neg hk]

end Store

end Custody
