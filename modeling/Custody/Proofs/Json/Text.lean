import Custody.Json.Printer
import Custody.Json.Reader
import Custody.Proofs.Text.Bytes

/-!
# The text of a value

Numbers and the other scalars, which end at the separator behind them only, and the parts that
arrays and objects are written as. The reader gives up on values that nest too deep, so their depth
is bounded (`Fits`).
-/

namespace Custody

/-! ## Numbers -/

namespace Text.Decimal

theorem toList_toString (n : Nat) : (toString n).toList = Nat.toDigits 10 n := by
  rw [Nat.toString_eq_repr, Nat.toList_repr]

/-- A positive number has no leading zero. -/
theorem head?_toDigits_ne {n : Nat} (hn : 0 < n) : (Nat.toDigits 10 n).head? ≠ some '0' := by
  induction n using Nat.strongRecOn with
  | _ n ih =>
      by_cases hsmall : n < 10
      · rw [Nat.toDigits_of_lt_base hsmall]
        have hdigit : ∀ d < 10, 0 < d → [Nat.digitChar d].head? ≠ some '0' := by decide
        exact hdigit n hsmall hn
      · rw [Nat.toDigits_of_base_le (by decide) (Nat.not_lt.1 hsmall), List.head?_append]
        have hrest := ih (n / 10) (by omega) (by omega)
        cases hhead : (Nat.toDigits 10 (n / 10)).head? with
        | none => exact absurd (List.head?_eq_none_iff.1 hhead) Nat.toDigits_ne_nil
        | some c =>
            rw [hhead] at hrest
            exact hrest

end Text.Decimal

namespace Json

open Ascii

/-- The byte of a character. -/
def charByte (c : Char) : UInt8 := UInt8.ofNat c.toNat

theorem charByte_digit {c : Char} (hc : c.isDigit) :
    isDigit (charByte c) ∧ (charByte c).toNat = c.toNat ∧ (charByte c = 0x30 → c = '0') := by
  rw [Char.isDigit, Bool.and_eq_true, decide_eq_true_eq, decide_eq_true_eq] at hc
  have hlow : 48 ≤ c.toNat := hc.1
  have hhigh : c.toNat ≤ 57 := hc.2
  have hbyte : (charByte c).toNat = c.toNat := by
    rw [charByte, UInt8.toNat_ofNat']
    omega
  refine ⟨?_, hbyte, ?_⟩
  · rw [isDigit, Bool.and_eq_true, decide_eq_true_eq, decide_eq_true_eq, UInt8.le_iff_toNat_le,
      UInt8.le_iff_toNat_le, hbyte]
    exact ⟨hlow, hhigh⟩
  · intro hzero
    rw [hzero] at hbyte
    exact Char.toNat_inj.1 hbyte.symm

theorem ofString_toString (n : Nat) :
    Bytes.ofString (toString n) = (Nat.toDigits 10 n).map charByte := by
  rw [Bytes.ofString_of_ascii fun c => Text.Decimal.toNat_lt_of_mem_toString,
    Text.Decimal.toList_toString]
  rfl

theorem isDigit_of_mem_toString {n : Nat} {b : UInt8} (hb : b ∈ Bytes.ofString (toString n)) :
    isDigit b := by
  rw [ofString_toString] at hb
  obtain ⟨c, hc, rfl⟩ := List.mem_map.1 hb
  exact (charByte_digit (Nat.isDigit_of_mem_toDigits (by decide) (by decide) hc)).1

theorem foldl_digits (cs : List Char) (hcs : ∀ c ∈ cs, c.isDigit) (n : Nat) :
    (cs.map charByte).foldl (fun n d => n * 10 + (d.toNat - 0x30)) n =
      Nat.ofDigitChars 10 cs n := by
  induction cs generalizing n with
  | nil => rfl
  | cons c cs ih =>
      obtain ⟨-, hbyte, -⟩ := charByte_digit (hcs c List.mem_cons_self)
      rw [List.map_cons, List.foldl_cons, ih fun x hx => hcs x (List.mem_cons_of_mem c hx),
        Nat.ofDigitChars_cons, hbyte, Nat.mul_comm]
      rfl

/-- The decimal form of a number is read as the number. -/
theorem nat?_toString (n : Nat) : nat? (Bytes.ofString (toString n)) = some n := by
  have hdigits : ∀ c ∈ Nat.toDigits 10 n, c.isDigit := fun c hc =>
    Nat.isDigit_of_mem_toDigits (by decide) (by decide) hc
  have hall : (Bytes.ofString (toString n)).all isDigit := by
    rw [List.all_eq_true]
    exact fun b => isDigit_of_mem_toString
  have hvalue := foldl_digits _ hdigits 0
  rw [Nat.ofDigitChars_toDigits (by decide) (by decide)] at hvalue
  rw [ofString_toString] at hall ⊢
  cases hchars : Nat.toDigits 10 n with
  | nil => exact absurd hchars Nat.toDigits_ne_nil
  | cons c rest =>
      rw [hchars] at hall hvalue
      have hlead : (charByte c != 0x30 || (rest.map charByte).isEmpty) = true := by
        rw [Bool.or_eq_true, bne_iff_ne]
        rcases Nat.eq_zero_or_pos n with rfl | hpos
        · rw [Nat.toDigits_zero] at hchars
          cases hchars
          exact .inr rfl
        · left
          intro hzero
          apply Text.Decimal.head?_toDigits_ne hpos
          rw [hchars, (charByte_digit (hdigits c (by simp [hchars]))).2.2 hzero]
          rfl
      rw [List.map_cons] at hall hvalue ⊢
      rw [nat?, hall, hlead, hvalue]
      rfl

/-! ## Scalars -/

/-- The byte stands for nothing but itself in JSON text. -/
def isPlain (b : UInt8) : Bool :=
  !isBlank b && !endsScalar b && b != quote && b != openBracket && b != openBrace

theorem isPlain_of_isDigit {b : UInt8} (hb : isDigit b) : isPlain b := by
  have hall : ∀ n < 256, isDigit (UInt8.ofNat n) → isPlain (UInt8.ofNat n) := by decide +kernel
  have hbyte := hall b.toNat b.toNat_lt
  rw [UInt8.ofNat_toNat] at hbyte
  exact hbyte hb

/-- A text of plain bytes. -/
structure Plain (text : Bytes) : Prop where
  ne_nil : text ≠ []
  plain : ∀ b ∈ text, isPlain b

theorem Plain.of_all {text : Bytes} (hne : text ≠ []) (hall : text.all isPlain) : Plain text :=
  ⟨hne, List.all_eq_true.1 hall⟩

theorem plain_toString (n : Nat) : Plain (Bytes.ofString (toString n)) where
  ne_nil := by
    rw [ofString_toString]
    simp
  plain _ hb := isPlain_of_isDigit (isDigit_of_mem_toString hb)

/-- The text begins with what ends a scalar. -/
def Ends (text : Bytes) : Prop := ∃ b rest, text = b :: rest ∧ endsScalar b

theorem skipBlank_cons {b : UInt8} (hb : isBlank b = false) (text : Bytes) :
    skipBlank (b :: text) = b :: text := by
  rw [skipBlank, List.dropWhile_cons_of_neg (by simp [hb])]

/-- A scalar is cut off at the sign that ends it, with the white space before that. -/
theorem readValue_token {text after rest : Bytes} (htext : Plain text)
    (hafter : ∀ b ∈ after, isBlank b) (hrest : Ends rest) (depth : Nat) :
    readValue (depth + 1) (text ++ (after ++ rest)) = some (scalar (text ++ after), rest) := by
  obtain ⟨e, more, rfl, he⟩ := hrest
  have hkept : ∀ b ∈ text ++ after, (!endsScalar b) = true := by
    intro b hb
    rcases List.mem_append.1 hb with htoken | hblank
    · have hplain := htext.plain b htoken
      simp only [isPlain, Bool.and_eq_true] at hplain
      exact hplain.1.1.1.2
    · have hspace := hafter b hblank
      simp only [isBlank, Bool.or_eq_true, beq_iff_eq] at hspace
      rcases hspace with ((rfl | rfl) | rfl) | rfl <;> decide
  have htake : ((text ++ after) ++ e :: more).takeWhile (!endsScalar ·) = text ++ after := by
    rw [List.takeWhile_append_of_pos hkept, List.takeWhile_cons_of_neg (by simp [he]),
      List.append_nil]
  have hdrop : ((text ++ after) ++ e :: more).dropWhile (!endsScalar ·) = e :: more := by
    rw [List.dropWhile_append_of_pos hkept, List.dropWhile_cons_of_neg (by simp [he])]
  rw [← List.append_assoc]
  cases text with
  | nil => exact absurd rfl htext.ne_nil
  | cons b text =>
      have hplain := htext.plain b List.mem_cons_self
      simp only [isPlain, Bool.and_eq_true, Bool.not_eq_true', bne_iff_ne] at hplain
      obtain ⟨⟨⟨⟨hblank, hends⟩, hquote⟩, hbracket⟩, hbrace⟩ := hplain
      rw [List.cons_append, List.cons_append] at htake hdrop ⊢
      rw [readValue, skipBlank_cons hblank]
      simp only [if_neg hquote, if_neg hbracket, if_neg hbrace, hends, htake, hdrop]
      rfl

/-- A value whose text is a scalar's. -/
def IsScalar : Json → Prop
  | null | bool _ | nat _ => True
  | _ => False

theorem scalar_eq {text : Bytes} (h : Plain text) :
    scalar text =
      if text = Bytes.ofString "null" then null
      else if text = Bytes.ofString "true" then bool true
      else if text = Bytes.ofString "false" then bool false
      else ((nat? text).map nat).getD (other text) := by
  have hcore : (text.reverse.dropWhile isBlank).reverse = text := by
    rw [List.reverse_eq_iff]
    cases hlast : text.reverse with
    | nil => rfl
    | cons b rest =>
        have hplain := h.plain b (List.mem_reverse.1 (by simp [hlast]))
        simp only [isPlain, Bool.and_eq_true] at hplain
        rw [List.dropWhile_cons_of_neg (by simpa using hplain.1.1.1.1)]
  rw [scalar, hcore]
  cases nat? text <;> rfl

theorem toString_ne {n : Nat} {text : Bytes} (h : text.all isDigit = false) :
    Bytes.ofString (toString n) ≠ text := by
  rintro rfl
  have hall : (Bytes.ofString (toString n)).all isDigit :=
    List.all_eq_true.2 fun b => isDigit_of_mem_toString
  rw [h] at hall
  cases hall

theorem scalar_print {j : Json} (h : j.IsScalar) : Plain j.print ∧ scalar j.print = j := by
  cases j with
  | null =>
      have hplain : Plain (Bytes.ofString "null") := .of_all (by decide) (by decide)
      exact ⟨hplain, (scalar_eq hplain).trans (if_pos rfl)⟩
  | bool b =>
      cases b with
      | true =>
          have hplain : Plain (Bytes.ofString "true") := .of_all (by decide) (by decide)
          refine ⟨hplain, (scalar_eq hplain).trans ?_⟩
          rw [if_neg (by decide), if_pos rfl]
      | false =>
          have hplain : Plain (Bytes.ofString "false") := .of_all (by decide) (by decide)
          refine ⟨hplain, (scalar_eq hplain).trans ?_⟩
          rw [if_neg (by decide), if_neg (by decide), if_pos rfl]
  | nat n =>
      have hplain := plain_toString n
      refine ⟨hplain, (scalar_eq hplain).trans ?_⟩
      rw [if_neg (toString_ne (by decide)), if_neg (toString_ne (by decide)),
        if_neg (toString_ne (by decide)), nat?_toString]
      rfl
  | str s => cases h
  | arr items => cases h
  | obj members => cases h
  | other text => cases h

/-! ## Sequences -/

/-- The text of a member. -/
def printMember (m : String × Json) : Bytes := Quoted.write m.1 ++ colon :: m.2.print

theorem printItems_cons (j : Json) (items : List Json) :
    printItems (j :: items) = j.print ++ items.flatMap fun k => comma :: k.print := by
  induction items generalizing j with
  | nil => rw [printItems, List.flatMap_nil, List.append_nil]
  | cons k items ih => rw [printItems, ih, List.flatMap_cons, List.cons_append]

theorem printMembers_cons (m : String × Json) (members : List (String × Json)) :
    printMembers (m :: members) =
      printMember m ++ members.flatMap fun x => comma :: printMember x := by
  induction members generalizing m with
  | nil => rw [printMembers, List.flatMap_nil, List.append_nil, printMember]
  | cons x members ih =>
      rw [printMembers, ih, List.flatMap_cons]
      simp only [printMember, List.append_assoc, List.cons_append]

/-! ## Values -/

/-- The text of the value shows where it ends. -/
def Closed : Json → Prop
  | str _ | arr _ | obj _ => True
  | _ => False

/-- Arrays and objects nest that many levels at most, and no other texts stand among the values. -/
def Fits : Nat → Json → Prop
  | _, null | _, bool _ | _, nat _ | _, str _ => True
  | depth + 1, arr items => ∀ j ∈ items, Fits depth j
  | depth + 1, obj members => ∀ m ∈ members, Fits depth m.2
  | _, _ => False

end Json

end Custody
