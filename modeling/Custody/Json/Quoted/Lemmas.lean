import Custody.Json.Quoted

/-!
# Laws of quoted strings

How single bytes and escapes are written and read.
-/

namespace Custody.Json.Quoted

open Ascii

/-- The byte stands for itself between quotes. -/
def PlainByte (b : UInt8) : Prop := b ≠ quote ∧ b ≠ backslash ∧ ¬ b < 0x20

instance (b : UInt8) : Decidable (PlainByte b) := inferInstanceAs (Decidable (_ ∧ _ ∧ _))

theorem content_plain {text : Bytes} (h : ∀ b ∈ text, PlainByte b) (rest : Bytes) :
    content false (text ++ rest) = (content false rest).map fun p => (text ++ p.1, p.2) := by
  induction text with
  | nil => simp
  | cons b text ih =>
      obtain ⟨⟨hquote, hbackslash, -⟩, htext⟩ := List.forall_mem_cons.1 h
      rw [List.cons_append, content, if_neg hquote, beq_false_of_ne hbackslash, ih htext]
      simp [Function.comp_def]

theorem content_backslash (e : UInt8) (text : Bytes) :
    content false (backslash :: e :: text) =
      (content false text).map fun p => (backslash :: e :: p.1, p.2) := by
  simp [content, show backslash ≠ quote by decide, Function.comp_def]

theorem unescape_plain {b : UInt8} (h : b ≠ backslash) (t : Bytes) :
    unescape none (b :: t) = if b < 0x20 then none else (unescape none t).map (b :: ·) := by
  rw [unescape.eq_def]
  simp [h]

theorem unescape_letter {e b : UInt8} (h : unletter? e = some b) (hu : e ≠ 0x75) (t : Bytes) :
    unescape none (backslash :: e :: t) = (unescape none t).map (b :: ·) := by
  rw [unescape.eq_def]
  simp [h, hu]

theorem unescape_raw {text : Bytes} (h : ∀ b ∈ text, PlainByte b) (rest : Bytes) :
    unescape none (text ++ rest) = (unescape none rest).map (text ++ ·) := by
  induction text with
  | nil => simp
  | cons b text ih =>
      obtain ⟨⟨-, hbackslash, hlow⟩, htext⟩ := List.forall_mem_cons.1 h
      rw [List.cons_append, unescape_plain hbackslash, if_neg hlow, ih htext]
      simp [Function.comp_def]

theorem escape_of_plainByte {b : UInt8} (h : PlainByte b) : escape b = [b] := by
  have hall : ∀ n < 256, PlainByte (UInt8.ofNat n) → escape (UInt8.ofNat n) = [UInt8.ofNat n] := by
    decide +kernel
  have hbyte := hall b.toNat b.toNat_lt
  rw [UInt8.ofNat_toNat] at hbyte
  exact hbyte h

end Custody.Json.Quoted
