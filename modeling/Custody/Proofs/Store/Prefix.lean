import Mathlib.Data.List.TakeWhile
import Mathlib.Order.Bounds.Defs
import Custody.Store.Key
import Custody.Store.Lemmas

/-!
# Keys with a common start

In byte order the keys that begin with the same bytes stand together: from these bytes themselves up
to, and not including, the end of the start. There is an end unless all of the bytes are 255.
-/

namespace Custody.Store.Key

/-- Some key stands above all that begin so. -/
def Bounded (start : Bytes) : Prop := ∃ b ∈ start, b ≠ 0xFF

instance (start : Bytes) : Decidable (Bounded start) :=
  inferInstanceAs (Decidable (∃ b ∈ start, b ≠ 0xFF))

theorem not_bounded_iff {start : Bytes} : ¬ Bounded start ↔ ∀ b ∈ start, b = 0xFF := by
  simp [Bounded]

theorem dropWhile_full {start : Bytes} (h : ∀ b ∈ start, b = 0xFF) :
    start.reverse.dropWhile (· == 0xFF) = [] := by
  rw [List.dropWhile_eq_nil_iff]
  intro b hb
  rw [beq_iff_eq]
  exact h b (List.mem_reverse.1 hb)

theorem startEnd_cons_full {b : UInt8} {rest : Bytes} (hb : b ≠ 0xFF)
    (hrest : ∀ x ∈ rest, x = 0xFF) : startEnd (b :: rest) = [b + 1] := by
  have hdrop : (b :: rest).reverse.dropWhile (· == 0xFF) = [b] := by
    rw [List.reverse_cons, List.dropWhile_append, dropWhile_full hrest, List.isEmpty_nil,
      if_pos rfl, List.dropWhile_cons_of_neg (by simpa using hb)]
  rw [startEnd, hdrop]
  rfl

theorem startEnd_cons {b : UInt8} {rest : Bytes} (h : Bounded rest) :
    startEnd (b :: rest) = b :: startEnd rest := by
  have hdrop : rest.reverse.dropWhile (· == 0xFF) ≠ [] := by
    rw [Ne, List.dropWhile_eq_nil_iff]
    intro hfull
    obtain ⟨x, hx, hne⟩ := h
    exact hne (beq_iff_eq.1 (hfull x (List.mem_reverse.2 hx)))
  unfold startEnd
  rw [List.reverse_cons, List.dropWhile_append]
  cases hlast : rest.reverse.dropWhile (· == 0xFF) with
  | nil => exact absurd hlast hdrop
  | cons last before => simp

theorem not_full_lt (b : UInt8) : ¬ 0xFF < b := by
  rw [UInt8.lt_iff_toNat_lt]
  have hsmall := b.toNat_lt
  have hbyte : (0xFF : UInt8).toNat = 255 := rfl
  omega

/-- No key stands above those that begin with nothing but 255. -/
theorem not_lt_full_iff {full key : Bytes} (h : ∀ b ∈ full, b = 0xFF) :
    ¬ key < full ↔ full <+: key := by
  induction full generalizing key with
  | nil => exact iff_of_true (List.not_lt_nil key) List.nil_prefix
  | cons b full ih =>
      obtain rfl := h b List.mem_cons_self
      have hrest : ∀ x ∈ full, x = 0xFF := fun x hx => h x (List.mem_cons_of_mem _ hx)
      cases key with
      | nil => simp
      | cons a rest =>
          rw [List.cons_lt_cons_iff, List.cons_prefix_cons, ← ih hrest, not_or, not_and]
          constructor
          · rintro ⟨hlow, hnext⟩
            have hsame : a = 0xFF :=
              UInt8.le_antisymm (UInt8.not_lt.1 (not_full_lt a)) (UInt8.not_lt.1 hlow)
            exact ⟨hsame.symm, hnext hsame⟩
          · rintro ⟨rfl, hnext⟩
            exact ⟨not_full_lt 0xFF, fun _ => hnext⟩

/-- Between two bounds that begin with the same byte, all keys do. -/
theorem between_cons_iff {b : UInt8} {low high key : Bytes} :
    ¬ key < b :: low ∧ key < b :: high ↔ ∃ rest, key = b :: rest ∧ ¬ rest < low ∧ rest < high := by
  constructor
  · rintro ⟨hlow, hhigh⟩
    cases key with
    | nil => exact absurd (List.nil_lt_cons b low) hlow
    | cons a rest =>
        rw [List.cons_lt_cons_iff, not_or, not_and] at hlow
        rw [List.cons_lt_cons_iff] at hhigh
        obtain hless | ⟨rfl, hhigh⟩ := hhigh
        · exact absurd hless hlow.1
        · exact ⟨rest, rfl, hlow.2 rfl, hhigh⟩
  · rintro ⟨rest, rfl, hlow, hhigh⟩
    simpa [List.cons_lt_cons_iff] using And.intro hlow hhigh

/-- Below the next byte, where the others are 255. -/
theorem below_next_iff {b : UInt8} (hb : b ≠ 0xFF) {full key : Bytes} (h : ∀ x ∈ full, x = 0xFF) :
    ¬ key < b :: full ∧ key < [b + 1] ↔ b :: full <+: key := by
  have hnext : (b + 1).toNat = b.toNat + 1 := by
    have hsmall : b.toNat ≠ 255 := fun hfull => hb (UInt8.toNat_inj.1 hfull)
    have hlt := b.toNat_lt
    have hone : (1 : UInt8).toNat = 1 := rfl
    rw [UInt8.toNat_add, hone]
    exact Nat.mod_eq_of_lt (by omega)
  cases key with
  | nil => simp
  | cons a rest =>
      rw [List.cons_lt_cons_iff, List.cons_lt_cons_iff, List.cons_prefix_cons, ← not_lt_full_iff h,
        not_or, not_and, UInt8.lt_iff_toNat_lt, UInt8.lt_iff_toNat_lt, hnext]
      constructor
      · rintro ⟨⟨hlow, hrest⟩, hhigh⟩
        have hsame : a = b := by
          rcases hhigh with hhigh | ⟨-, hnil⟩
          · exact UInt8.toNat_inj.1 (by omega)
          · exact absurd hnil (List.not_lt_nil rest)
        exact ⟨hsame.symm, hrest hsame⟩
      · rintro ⟨rfl, hrest⟩
        exact ⟨⟨Nat.lt_irrefl _, fun _ => hrest⟩, .inl (Nat.lt_succ_self _)⟩

/-- The keys in the range of a start are those that begin with it. -/
theorem mem_startEnd_iff {start key : Bytes} (h : Bounded start) :
    ¬ key < start ∧ key < startEnd start ↔ start <+: key := by
  induction start generalizing key with
  | nil =>
      obtain ⟨b, hb, -⟩ := h
      cases hb
  | cons b rest ih =>
      -- The byte that is raised is in the rest, or else it is this one.
      by_cases hrest : Bounded rest
      · rw [startEnd_cons hrest, between_cons_iff, List.cons_prefix_iff]
        simp only [ih hrest]
      · rw [not_bounded_iff] at hrest
        have hb : b ≠ 0xFF := by
          obtain ⟨x, hx, hne⟩ := h
          rcases List.mem_cons.1 hx with rfl | hx
          · exact hne
          · exact absurd (hrest x hx) hne
        rw [startEnd_cons_full hb hrest]
        exact below_next_iff hb hrest

/-- The end of a start is above all keys that begin with it, and no key below it is. -/
theorem isLeast_startEnd {start : Bytes} (h : Bounded start) :
    IsLeast {bound | ∀ key, start <+: key → key < bound} (startEnd start) := by
  constructor
  · intro key hkey
    exact ((mem_startEnd_iff h).2 hkey).2
  · intro bound hbound hless
    -- A bound below the end is not below the start either, so it begins with the start itself.
    have hlow : ¬ bound < start := fun hbelow =>
      List.lt_irrefl bound (List.lt_trans hbelow (hbound start List.prefix_rfl))
    exact List.lt_irrefl bound (hbound bound ((mem_startEnd_iff h).1 ⟨hlow, hless⟩))

/-- A zero more makes the least key above another. -/
theorem not_lt_append_zero_iff {key key' : Bytes} : ¬ key' < key ++ [0x00] ↔ key < key' := by
  induction key generalizing key' with
  | nil =>
      cases key' with
      | nil => simp
      | cons a rest => simp [List.cons_lt_cons_iff]
  | cons b key ih =>
      cases key' with
      | nil => simp
      | cons a rest =>
          rw [List.cons_append, List.cons_lt_cons_iff, List.cons_lt_cons_iff, ← ih, not_or,
            not_and]
          rcases Nat.lt_trichotomy a.toNat b.toNat with hless | hsame | hmore
          · have hne : b ≠ a := fun h => Nat.ne_of_lt hless (congrArg UInt8.toNat h.symm)
            have hnot : ¬ b < a := Nat.lt_asymm hless
            exact iff_of_false (fun h => h.1 hless) (by simp [hne, hnot])
          · obtain rfl := UInt8.toNat_inj.1 hsame
            simp
          · have hne : a ≠ b := fun h => Nat.ne_of_gt hmore (congrArg UInt8.toNat h)
            have hnot : ¬ a < b := Nat.lt_asymm hmore
            exact iff_of_true ⟨hnot, fun h => absurd h hne⟩ (.inl hmore)

end Custody.Store.Key
