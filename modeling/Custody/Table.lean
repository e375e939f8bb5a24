/-!
# Tables

Finite maps as lists of entries with distinct keys.
-/

namespace Custody

theorem lookup_cons {α β : Type} [BEq α] [LawfulBEq α] [DecidableEq α] (x : α × β)
    (rest : List (α × β)) (key : α) :
    (x :: rest).lookup key = if key = x.1 then some x.2 else rest.lookup key := by
  obtain ⟨k, v⟩ := x
  by_cases h : key = k
  · rw [h, List.lookup_cons_self, if_pos rfl]
  · have hk : (key == k) = false := by simpa using h
    rw [List.lookup_cons, hk, if_neg h]

theorem lookup_of_mem {α β : Type} [BEq α] [LawfulBEq α] [DecidableEq α] {entries : List (α × β)}
    (hdistinct : (entries.map (·.1)).Nodup) {key : α} {value : β} (h : (key, value) ∈ entries) :
    entries.lookup key = some value := by
  induction entries with
  | nil => cases h
  | cons x rest ih =>
      rw [List.map_cons, List.nodup_cons] at hdistinct
      rw [lookup_cons]
      rcases List.mem_cons.1 h with rfl | hmem
      · exact if_pos rfl
      · have hne : key ≠ x.1 := by
          rintro rfl
          exact hdistinct.1 (List.mem_map.2 ⟨_, hmem, rfl⟩)
        rw [if_neg hne, ih hdistinct.2 hmem]

structure Table (κ ν : Type) [DecidableEq κ] where
  entries : List (κ × ν)
  distinct : (entries.map (·.1)).Nodup

namespace Table

variable {κ ν : Type} [DecidableEq κ]

def empty : Table κ ν := ⟨[], .nil⟩

instance : Inhabited (Table κ ν) := ⟨empty⟩

def get? (t : Table κ ν) (k : κ) : Option ν := t.entries.lookup k

def insert (t : Table κ ν) (k : κ) (v : ν) : Table κ ν where
  entries := (k, v) :: t.entries.filter (·.1 ≠ k)
  distinct := by
    rw [List.map_cons, List.nodup_cons]
    constructor
    · simp
    · exact t.distinct.sublist (List.filter_sublist.map _)

@[simp] theorem get?_empty (k : κ) : (empty : Table κ ν).get? k = none := rfl

theorem get?_of_mem (t : Table κ ν) {k : κ} {v : ν} (h : (k, v) ∈ t.entries) : t.get? k = some v :=
  lookup_of_mem t.distinct h

theorem get?_of_not_mem (t : Table κ ν) {k : κ} (h : ∀ e ∈ t.entries, e.1 ≠ k) :
    t.get? k = none := by
  rw [get?, List.lookup_eq_none_iff]
  intro e he
  exact bne_iff_ne.2 (h e he).symm

theorem lookup_filter_ne (entries : List (κ × ν)) (k j : κ) (h : j ≠ k) :
    (entries.filter (·.1 ≠ k)).lookup j = entries.lookup j := by
  induction entries with
  | nil => rfl
  | cons e rest ih =>
    by_cases he : e.1 = k
    · rw [List.filter_cons_of_neg (by simpa using he), ih, lookup_cons, if_neg (he ▸ h)]
    · rw [List.filter_cons_of_pos (by simpa using he), lookup_cons, lookup_cons, ih]

theorem get?_insert (t : Table κ ν) (k j : κ) (v : ν) :
    (t.insert k v).get? j = if j = k then some v else t.get? j := by
  rw [get?, insert, lookup_cons]
  by_cases h : j = k
  · rw [if_pos h, if_pos h]
  · rw [if_neg h, if_neg h]
    exact lookup_filter_ne t.entries k j h

end Table

end Custody
