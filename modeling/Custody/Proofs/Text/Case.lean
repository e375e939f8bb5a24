import Mathlib
import Custody.Proofs.Text.Bytes

/-!
# Letters in one case

Only ASCII letters have a case. A text without letters is in either case.
-/

namespace Custody

namespace Text

/-- No letter is in upper case. -/
def Lower (cs : List Char) : Prop := ∀ c ∈ cs, ¬ c.isUpper

/-- No letter is in lower case. -/
def Upper (cs : List Char) : Prop := ∀ c ∈ cs, ¬ c.isLower

/-- No two letters are in different cases. -/
def OneCase (cs : List Char) : Prop := Lower cs ∨ Upper cs

variable {c : Char} {cs ds : List Char} {s : String}

@[simp] theorem lower_nil : Lower [] := List.forall_mem_nil _

@[simp] theorem upper_nil : Upper [] := List.forall_mem_nil _

@[simp] theorem lower_cons : Lower (c :: cs) ↔ ¬ c.isUpper ∧ Lower cs := List.forall_mem_cons

@[simp] theorem upper_cons : Upper (c :: cs) ↔ ¬ c.isLower ∧ Upper cs := List.forall_mem_cons

@[simp] theorem lower_append : Lower (cs ++ ds) ↔ Lower cs ∧ Lower ds := List.forall_mem_append

@[simp] theorem upper_append : Upper (cs ++ ds) ↔ Upper cs ∧ Upper ds := List.forall_mem_append

theorem toLower_eq_self_iff : c.toLower = c ↔ ¬ c.isUpper := by
  constructor
  · intro h
    rw [← h, Char.isUpper_toLower_eq_false]
    decide
  · exact Char.toLower_eq_of_not_isUpper

theorem toUpper_eq_self_iff : c.toUpper = c ↔ ¬ c.isLower := by
  constructor
  · intro h
    rw [← h, Char.isLower_toUpper_eq_false]
    decide
  · exact Char.toUpper_eq_of_not_isLower

theorem map_toLower_eq_self_iff : cs.map Char.toLower = cs ↔ Lower cs := by
  induction cs with
  | nil => simp
  | cons c cs ih => rw [List.map_cons, List.cons.injEq, ih, toLower_eq_self_iff, lower_cons]

theorem map_toUpper_eq_self_iff : cs.map Char.toUpper = cs ↔ Upper cs := by
  induction cs with
  | nil => simp
  | cons c cs ih => rw [List.map_cons, List.cons.injEq, ih, toUpper_eq_self_iff, upper_cons]

theorem toLower_eq_iff : s.toLower = s ↔ Lower s.toList := by
  rw [← map_toLower_eq_self_iff, ← String.toList_inj, String.toLower, String.toList_map]

theorem toUpper_eq_iff : s.toUpper = s ↔ Upper s.toList := by
  rw [← map_toUpper_eq_self_iff, ← String.toList_inj, String.toUpper, String.toList_map]

@[simp] theorem lower_toLower (s : String) : Lower s.toLower.toList := by
  rw [← map_toLower_eq_self_iff, String.toLower, String.toList_map, List.map_map]
  simp [Function.comp_def]

@[simp] theorem upper_toUpper (s : String) : Upper s.toUpper.toList := by
  rw [← map_toUpper_eq_self_iff, String.toUpper, String.toList_map, List.map_map]
  simp [Function.comp_def]

theorem toLower_toUpper (s : String) : s.toUpper.toLower = s.toLower := by
  rw [← String.toList_inj]
  simp [String.toLower, String.toUpper, String.toList_map]

theorem toUpper_toLower (s : String) : s.toLower.toUpper = s.toUpper := by
  rw [← String.toList_inj]
  simp [String.toLower, String.toUpper, String.toList_map]

/-- The two spellings of a lower-case text. -/
theorem oneCase_and_toLower_eq_iff {t : String} (ht : Lower t.toList) :
    OneCase s.toList ∧ s.toLower = t ↔ s = t ∨ s = t.toUpper := by
  constructor
  · rintro ⟨hlower | hupper, rfl⟩
    · exact .inl (toLower_eq_iff.2 hlower).symm
    · right
      rw [toUpper_toLower]
      exact (toUpper_eq_iff.2 hupper).symm
  · rintro (rfl | rfl)
    · exact ⟨.inl ht, toLower_eq_iff.2 ht⟩
    · exact ⟨.inr (upper_toUpper t), (toLower_toUpper t).trans (toLower_eq_iff.2 ht)⟩

end Text

namespace Bytes

/-- Bytes that are ASCII are the characters of the text. -/
theorem toList_of_ascii {s : String} (hs : ∀ b ∈ ofString s, b.toNat < 128) :
    s.toList = (ofString s).map fun b => Char.ofNat b.toNat := by
  generalize hchars : (ofString s).map (fun b => Char.ofNat b.toNat) = chars
  have hnat : ∀ b ∈ ofString s, (Char.ofNat b.toNat).toNat = b.toNat := by
    intro b hb
    have hsmall := hs b hb
    rw [Char.toNat_ofNat, if_pos (.inl (by omega))]
  have hascii : ∀ c ∈ chars, c.toNat < 128 := by
    intro c hc
    rw [← hchars, List.mem_map] at hc
    obtain ⟨b, hb, rfl⟩ := hc
    rw [hnat b hb]
    exact hs b hb
  have hbytes : ofString (String.ofList chars) = ofString s := by
    rw [ofString_of_ascii (by rwa [String.toList_ofList]), String.toList_ofList, ← hchars,
      List.map_map]
    refine (List.map_congr_left fun b hb => ?_).trans (List.map_id _)
    simp [hnat b hb]
  calc
    s.toList = (String.ofList chars).toList := by rw [ofString_injective hbytes]
    _ = chars := String.toList_ofList

end Bytes

end Custody
