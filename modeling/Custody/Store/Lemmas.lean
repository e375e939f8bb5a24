import Custody.Store.Basic

/-!
# Laws of the store

The entries are exactly what `get` yields, so stores that agree at every key are equal, and a
range holds what lies between its ends.
-/

namespace Custody.Store

theorem lookup_eq_none {key : Bytes} {entries : List (Bytes × Bytes)}
    (h : ∀ e ∈ entries, key < e.1) : entries.lookup key = none := by
  rw [List.lookup_eq_none_iff]
  intro e he
  rw [bne_iff_ne]
  rintro rfl
  exact List.lt_irrefl _ (h e he)

private theorem not_lt_head {x y : Bytes × Bytes} {a b : List (Bytes × Bytes)}
    (hb : (y :: b).Pairwise fun x y => x.1 < y.1)
    (h : ∀ k, (x :: a).lookup k = (y :: b).lookup k) : ¬ x.1 < y.1 := by
  intro lt
  have above := (List.pairwise_cons.1 hb).1
  have none : (y :: b).lookup x.1 = none := lookup_eq_none fun e he => by
    rcases List.mem_cons.1 he with rfl | he
    · exact lt
    · exact List.lt_trans lt (above e he)
  have found := h x.1
  rw [none, lookup_cons, if_pos rfl] at found
  cases found

private theorem entries_eq {a b : List (Bytes × Bytes)} (ha : a.Pairwise fun x y => x.1 < y.1)
    (hb : b.Pairwise fun x y => x.1 < y.1) (h : ∀ k, a.lookup k = b.lookup k) : a = b := by
  induction a generalizing b with
  | nil =>
    cases b with
    | nil => rfl
    | cons y b =>
      have found := h y.1
      rw [lookup_cons, if_pos rfl] at found
      cases found
  | cons x a ih =>
    cases b with
    | nil =>
      have found := h x.1
      rw [lookup_cons, if_pos rfl] at found
      cases found
    | cons y b =>
      have key : x.1 = y.1 := eq_of_not_lt (not_lt_head hb h) (not_lt_head ha fun k => (h k).symm)
      have value : x.2 = y.2 := by
        have same := h x.1
        rwa [lookup_cons, lookup_cons, if_pos rfl, if_pos key, Option.some.injEq] at same
      obtain ⟨aboveA, ha⟩ := List.pairwise_cons.1 ha
      obtain ⟨aboveB, hb⟩ := List.pairwise_cons.1 hb
      rw [Prod.ext key value, ih ha hb]
      intro k
      by_cases hk : k = x.1
      · rw [lookup_eq_none fun e he => hk ▸ aboveA e he,
          lookup_eq_none fun e he => hk ▸ key ▸ aboveB e he]
      · have same := h k
        rwa [lookup_cons, lookup_cons, if_neg hk, if_neg (key ▸ hk)] at same

/-- A store is known by what it holds under each key. -/
theorem ext {s t : Store} (h : ∀ k, s.get k = t.get k) : s = t := by
  obtain ⟨a, ha⟩ := s
  obtain ⟨b, hb⟩ := t
  cases entries_eq ha hb h
  rfl

theorem insert_comm {key key' : Bytes} (h : key ≠ key') (s : Store) (value value' : Bytes) :
    (s.insert key value).insert key' value' = (s.insert key' value').insert key value := by
  apply ext
  intro k
  rw [get_insert, get_insert, get_insert, get_insert]
  by_cases hk : k = key
  · rw [if_pos hk, if_pos hk, if_neg (hk ▸ h)]
  · rw [if_neg hk, if_neg hk]

theorem mem_entries_iff {s : Store} {key value : Bytes} :
    (key, value) ∈ s.entries ↔ s.get key = some value := by
  obtain ⟨entries, sorted⟩ := s
  simp only [get]
  induction entries with
  | nil => simp
  | cons x rest ih =>
    obtain ⟨above, sorted⟩ := List.pairwise_cons.1 sorted
    rw [lookup_cons, List.mem_cons, ih sorted]
    by_cases h : key = x.1
    · rw [if_pos h, lookup_eq_none fun e he => h ▸ above e he]
      simp [Prod.ext_iff, h, eq_comm]
    · rw [if_neg h]
      simp [Prod.ext_iff, h]

theorem mem_range_iff {s : Store} {low high key value : Bytes} :
    (key, value) ∈ s.range low high ↔ s.get key = some value ∧ ¬ key < low ∧ key < high := by
  simp [range, mem_entries_iff]

end Custody.Store
