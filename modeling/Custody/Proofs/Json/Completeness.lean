import Mathlib.Data.List.DropRight
import Mathlib.Data.List.Forall2
import Custody.Json.Quoted.Lemmas
import Custody.Proofs.Json.Grammar

/-!
# The reader takes all JSON text

Every text of the grammar is read, up to its end, as long as its strings spell texts. A scalar takes
the white space behind it along, and any other value leaves it to what reads on. What is written of
a value is such a text, and it is read as the value. Main statements: `exists_reads`, `read?_print`.
-/

namespace Custody

namespace Bytes

/-- Characters beyond ASCII are made of bytes beyond ASCII. -/
theorem le_of_mem_utf8EncodeChar {c : Char} (hc : 128 ≤ c.toNat) {b : UInt8}
    (hb : b ∈ String.utf8EncodeChar c) : 128 ≤ b.toNat := by
  have hvalue : c.val.toNat = c.toNat := rfl
  unfold String.utf8EncodeChar at hb
  simp only at hb
  split at hb
  · omega
  · split at hb
    · simp only [List.mem_cons, List.not_mem_nil, or_false] at hb
      rcases hb with rfl | rfl <;> rw [UInt8.toNat_ofNat'] <;> omega
    · split at hb
      · simp only [List.mem_cons, List.not_mem_nil, or_false] at hb
        rcases hb with rfl | rfl | rfl <;> rw [UInt8.toNat_ofNat'] <;> omega
      · simp only [List.mem_cons, List.not_mem_nil, or_false] at hb
        rcases hb with rfl | rfl | rfl | rfl <;> rw [UInt8.toNat_ofNat'] <;> omega

end Bytes

namespace Json

open Ascii
open Grammar

/-! ## Strings -/

namespace Quoted

theorem plainByte_of_raw {c : Char} (hc : Raw c) {b : UInt8} (hb : b ∈ String.utf8EncodeChar c) :
    PlainByte b := by
  obtain ⟨hlow, hquote, hbackslash⟩ := hc
  have hkept : b.toNat = c.toNat ∨ 128 ≤ b.toNat := by
    rcases Nat.lt_or_ge c.toNat 128 with hascii | hlarge
    · rw [Bytes.utf8EncodeChar_of_ascii hascii, List.mem_singleton] at hb
      subst hb
      left
      rw [UInt8.toNat_ofNat']
      omega
    · exact .inr (Bytes.le_of_mem_utf8EncodeChar hlarge hb)
  have hother : ∀ d : Char, d.toNat < 128 → c ≠ d → b.toNat ≠ d.toNat := by
    intro d hd hne hsame
    have hcd : c.toNat ≠ d.toNat := fun h => hne (Char.toNat_inj.1 h)
    omega
  refine ⟨?_, ?_, ?_⟩
  · rintro rfl
    exact hother '"' (by decide) hquote rfl
  · rintro rfl
    exact hother '\\' (by decide) hbackslash rfl
  · rw [UInt8.lt_iff_toNat_lt]
    have hbound : (0x20 : UInt8).toNat = 32 := rfl
    omega

theorem letters_spec {e : UInt8} {c : Char} (h : (e, c) ∈ letters) :
    ∃ b, unletter? e = some b ∧ e ≠ 0x75 ∧ String.utf8EncodeChar c = [b] := by
  simp only [letters, List.mem_cons, Prod.mk.injEq, List.not_mem_nil, or_false] at h
  rcases h with ⟨rfl, rfl⟩ | ⟨rfl, rfl⟩ | ⟨rfl, rfl⟩ | ⟨rfl, rfl⟩ | ⟨rfl, rfl⟩ | ⟨rfl, rfl⟩ |
    ⟨rfl, rfl⟩ | ⟨rfl, rfl⟩
  all_goals exact ⟨_, rfl, by decide, by decide⟩

theorem nibble?_of_hexDigit {b : UInt8} {n : Nat} (h : HexDigit b n) :
    nibble? b = some n ∧ PlainByte b := by
  have hall : ∀ n < 16,
      (nibble? (charByte (Nat.digitChar n)) = some n ∧ PlainByte (charByte (Nat.digitChar n))) ∧
      nibble? (charByte (Nat.digitChar n).toUpper) = some n ∧
        PlainByte (charByte (Nat.digitChar n).toUpper) := by
    decide +kernel
  obtain ⟨hn, rfl | rfl⟩ := h
  · exact (hall n hn).1
  · exact (hall n hn).2

theorem plainByte_of_codeUnit {digits : Bytes} {n : Nat} (h : CodeUnit digits n) :
    ∀ b ∈ digits, PlainByte b := by
  obtain ⟨hp, hq, hr, hs⟩ := h
  simp only [List.forall_mem_cons]
  exact ⟨(nibble?_of_hexDigit hp).2, (nibble?_of_hexDigit hq).2, (nibble?_of_hexDigit hr).2,
    (nibble?_of_hexDigit hs).2, nofun⟩

/-- An escape of four digits reads as its number. -/
theorem unescape_unit {digits : Bytes} {n : Nat} (h : CodeUnit digits n) (high : Option Nat)
    (rest : Bytes) : unescape high (backslash :: 0x75 :: (digits ++ rest)) =
      match high with
      | none =>
        if isHigh n then unescape (some n) rest
        else if isLow n then none
        else (unescape none rest).map (codePoint n ++ ·)
      | some first =>
        if isHigh n then none
        else if isLow n then
          (unescape none rest).map
            (codePoint (0x10000 + (first - 0xD800) * 0x400 + (n - 0xDC00)) ++ ·)
        else (unescape (some first) rest).map (codePoint n ++ ·) := by
  obtain ⟨hp, hq, hr, hs⟩ := h
  rename_i p q r s i j k l
  have hunit : unit? p q r s = some (((i * 16 + j) * 16 + k) * 16 + l) := by
    rw [unit?, (nibble?_of_hexDigit hp).1, (nibble?_of_hexDigit hq).1, (nibble?_of_hexDigit hr).1,
      (nibble?_of_hexDigit hs).1]
    rfl
  rw [unescape.eq_def]
  simp only [if_true, List.cons_append, List.nil_append, hunit]
  cases high with
  | none => rfl
  | some first => rfl

theorem codePoint_toNat (c : Char) : codePoint c.toNat = String.utf8EncodeChar c := by
  rw [codePoint, Char.ofNat_toNat]

/-- No character is half of one. -/
theorem no_surrogate (c : Char) : isHigh c.toNat = false ∧ isLow c.toNat = false := by
  have hvalid : c.toNat < 0xD800 ∨ 0xDFFF < c.toNat ∧ c.toNat < 0x110000 := c.valid
  simp only [isHigh, isLow, Bool.and_eq_false_iff, decide_eq_false_iff_not]
  omega

theorem unescape_of_spells {cs : List Char} {text : Bytes} (h : Spells cs text) :
    unescape none text = some (cs.flatMap String.utf8EncodeChar) := by
  induction h with
  | nil => rfl
  | raw hc h ih =>
      rw [unescape_raw (fun b => plainByte_of_raw hc), ih, List.flatMap_cons, Option.map_some]
  | letter he h ih =>
      obtain ⟨b, hb, hne, hbyte⟩ := letters_spec he
      rw [unescape_letter hb hne, ih, List.flatMap_cons, hbyte, Option.map_some,
        List.singleton_append]
  | @unit digits text c cs hdigits h ih =>
      obtain ⟨hhigh, hlow⟩ := no_surrogate c
      rw [unescape_unit hdigits]
      simp only [hhigh, hlow, ih, codePoint_toNat, List.flatMap_cons, Option.map_some]
      rfl
  | @pair first second text high low c cs hhigh hlow hfirst hsecond hc h ih =>
      have hlead : isHigh (0xD800 + high) = true := by
        rw [isHigh, Bool.and_eq_true, decide_eq_true_eq, decide_eq_true_eq]
        omega
      have hother : isHigh (0xDC00 + low) = false := by
        rw [isHigh, Bool.and_eq_false_iff, decide_eq_false_iff_not, decide_eq_false_iff_not]
        omega
      have htrail : isLow (0xDC00 + low) = true := by
        rw [isLow, Bool.and_eq_true, decide_eq_true_eq, decide_eq_true_eq]
        omega
      rw [unescape_unit hfirst]
      simp only [hlead, if_true]
      rw [unescape_unit hsecond]
      simp only [hother, htrail, if_true, Nat.add_sub_cancel_left, ← hc, codePoint_toNat, ih,
        List.flatMap_cons, Option.map_some]
      rfl

/-- The content of a string ends at its closing quote. -/
theorem content_of_escaped {text : Bytes} (h : Escaped text) (rest : Bytes) :
    content false (text ++ quote :: rest) = some (text, rest) := by
  induction h with
  | nil => rfl
  | raw hc h ih =>
      rw [List.append_assoc, content_plain (fun b => plainByte_of_raw hc), ih]
      rfl
  | letter he h ih =>
      rw [List.cons_append, List.cons_append, content_backslash, ih]
      rfl
  | unit hdigits h ih =>
      rw [List.cons_append, List.cons_append, content_backslash, List.append_assoc,
        content_plain (plainByte_of_codeUnit hdigits), ih]
      rfl

/-- A text that spells without escapes is spelled as it is. -/
theorem eq_of_spells {cs : List Char} {text : Bytes} (h : Spells cs text)
    (hplain : backslash ∉ text) : text = cs.flatMap String.utf8EncodeChar := by
  induction h with
  | nil => rfl
  | raw hc h ih =>
      rw [List.mem_append, not_or] at hplain
      rw [ih hplain.2, List.flatMap_cons]
  | letter he h ih => exact absurd List.mem_cons_self hplain
  | unit hdigits h ih => exact absurd List.mem_cons_self hplain
  | pair hhigh hlow hfirst hsecond hc h ih => exact absurd List.mem_cons_self hplain

theorem read_of_spells {s : String} {text : Bytes} (h : Spells s.toList text) (rest : Bytes) :
    read (text ++ quote :: rest) = some (s, rest) := by
  have hbytes : s.toList.flatMap String.utf8EncodeChar = Bytes.ofString s :=
    (Bytes.ofString_eq_flatMap s).symm
  have hunescape := unescape_of_spells h
  rw [hbytes] at hunescape
  rw [read, content_of_escaped h.escaped]
  simp only [Option.bind_eq_bind, Option.bind_some]
  by_cases hplain : backslash ∈ text
  · simp only [if_pos hplain, hunescape, Option.bind_some, Bytes.toString?_ofString]
  · rw [if_neg hplain, eq_of_spells h hplain, hbytes]
    simp only [Bytes.toString?_ofString, Option.bind_some]

/-- A string spells one text only. -/
theorem eq_of_quotes {s t : String} {text : Bytes} (hs : Quotes s text) (ht : Quotes t text) :
    s = t := by
  obtain ⟨body, hspells, rfl⟩ := hs
  obtain ⟨other, hother, htext⟩ := ht
  rw [List.cons.injEq, List.append_cancel_right_eq] at htext
  obtain ⟨-, rfl⟩ := htext
  have hread := read_of_spells hspells []
  rw [read_of_spells hother [], Option.some.injEq, Prod.mk.injEq] at hread
  exact hread.1.symm

/-! ## What is written -/

theorem hexDigit_spec : ∀ n < 16, HexDigit (hexDigit n) n := by
  intro n hn
  have hall : ∀ n < 16, hexDigit n = charByte (Nat.digitChar n).toUpper := by decide +kernel
  exact ⟨hn, .inr (hall n hn)⟩

/-- Whatever character stands first, it is written in a way that spells it. -/
theorem spells_escape (c : Char) {cs : List Char} {text : Bytes} (h : Spells cs text) :
    Spells (c :: cs) ((String.utf8EncodeChar c).flatMap escape ++ text) := by
  by_cases hc : Raw c
  · have hkept : (String.utf8EncodeChar c).flatMap escape = String.utf8EncodeChar c := by
      rw [List.flatMap_congr fun b hb => escape_of_plainByte (plainByte_of_raw hc hb)]
      exact List.flatMap_singleton' _
    rw [hkept]
    exact .raw hc h
  · have hsmall : c.toNat < 128 := by
      by_contra hlarge
      refine hc ⟨by omega, ?_, ?_⟩
      · rintro rfl
        exact hlarge (by decide)
      · rintro rfl
        exact hlarge (by decide)
    rw [Bytes.utf8EncodeChar_of_ascii hsmall, List.flatMap_singleton]
    have hall : ∀ n < 128, ¬ Raw (Char.ofNat n) →
        (∃ x ∈ letters, x.2 = Char.ofNat n ∧ escape (UInt8.ofNat n) = [backslash, x.1]) ∨
          escape (UInt8.ofNat n) =
            backslash :: 0x75 :: [0x30, 0x30, hexDigit (n / 16), hexDigit (n % 16)] := by
      decide +kernel
    have hcase := hall c.toNat hsmall
    rw [Char.ofNat_toNat] at hcase
    rcases hcase hc with ⟨⟨e, d⟩, he, rfl, hletter⟩ | hdigits
    · rw [hletter]
      exact .letter he h
    · have hzero : HexDigit 0x30 0 := ⟨by decide, .inl (by decide)⟩
      have hunit := CodeUnit.mk hzero hzero (hexDigit_spec (c.toNat / 16) (by omega))
        (hexDigit_spec (c.toNat % 16) (by omega))
      have hvalue : ((0 * 16 + 0) * 16 + c.toNat / 16) * 16 + c.toNat % 16 = c.toNat := by omega
      rw [hvalue] at hunit
      rw [hdigits]
      exact .unit hunit h

theorem spells_write (s : String) : Spells s.toList ((Bytes.ofString s).flatMap escape) := by
  rw [Bytes.ofString_eq_flatMap, List.flatMap_assoc]
  generalize s.toList = cs
  induction cs with
  | nil => exact .nil
  | cons c cs ih => exact spells_escape c ih

/-- A text is spelled as it is written. -/
theorem quotes_write (s : String) : Quotes s (write s) := ⟨_, spells_write s, rfl⟩

end Quoted

/-! ## White space -/

theorem Grammar.Blank.isBlank {text : Bytes} (h : Blank text) : ∀ b ∈ text, isBlank b := by
  intro b hb
  rcases h b hb with rfl | rfl | rfl | rfl <;> decide

theorem skipBlank_append {blank : Bytes} (h : Blank blank) (text : Bytes) :
    skipBlank (blank ++ text) = skipBlank text :=
  List.dropWhile_append_of_pos h.isBlank

theorem skipBlank_skipBlank (text : Bytes) : skipBlank (skipBlank text) = skipBlank text :=
  List.dropWhile_idempotent _ _

theorem Ends.skipBlank {text : Bytes} (h : Ends text) : skipBlank text = text := by
  obtain ⟨b, rest, rfl, hb⟩ := h
  apply skipBlank_cons
  simp only [endsScalar, Bool.or_eq_true, beq_iff_eq] at hb
  rcases hb with (rfl | rfl) | rfl <;> decide

@[simp] theorem readValue_skipBlank (depth : Nat) (text : Bytes) :
    readValue depth (Json.skipBlank text) = readValue depth text := by
  cases depth with
  | zero => rfl
  | succ depth => rw [readValue, readValue, skipBlank_skipBlank]

@[simp] theorem readItems_skipBlank (item : Bytes → Option (Json × Bytes)) (fuel : Nat)
    (first : Bool) (text : Bytes) :
    readItems item fuel first (Json.skipBlank text) = readItems item fuel first text := by
  cases fuel with
  | zero => rfl
  | succ fuel => rw [readItems, readItems, skipBlank_skipBlank]

@[simp] theorem readMembers_skipBlank (item : Bytes → Option (Json × Bytes)) (fuel : Nat)
    (first : Bool) (text : Bytes) :
    readMembers item fuel first (Json.skipBlank text) = readMembers item fuel first text := by
  cases fuel with
  | zero => rfl
  | succ fuel => rw [readMembers, readMembers, skipBlank_skipBlank]

/-! ## Sequences -/

/-- In front of a separator the text is read as the value, up to white space. -/
def Reads {α : Type} (item : Bytes → Option (α × Bytes)) (text : Bytes) (a : α) : Prop :=
  ∀ rest, Ends rest → ∃ more, item (text ++ rest) = some (a, more) ∧ skipBlank more = rest

theorem Reads.of_eq {α : Type} {item : Bytes → Option (α × Bytes)} {text : Bytes} {a : α}
    (h : ∀ rest, Ends rest → item (text ++ rest) = some (a, rest)) : Reads item text a :=
  fun rest hrest => ⟨rest, h rest hrest, hrest.skipBlank⟩

/-- Behind a part of a sequence stands a comma or the closing sign. -/
theorem ends_rest (parts : List Bytes) {close : UInt8} (h : endsScalar close) (rest : Bytes) :
    Ends (parts.flatMap (comma :: ·) ++ close :: rest) := by
  cases parts with
  | nil => exact ⟨close, rest, rfl, h⟩
  | cons part parts =>
      rw [List.flatMap_cons, List.append_assoc]
      exact ⟨comma, _, rfl, by decide⟩

/-- The reader of a sequence is given one step more than there are bytes, which is enough: each part
after the first has its comma. -/
theorem length_lt_listed {parts : List Bytes} {inner : Bytes} (h : Listed parts inner)
    (close : UInt8) (rest : Bytes) : parts.length < (inner ++ close :: rest).length + 1 := by
  cases parts with
  | nil => exact Nat.succ_pos _
  | cons part parts =>
      have hmany : parts.length ≤ (parts.flatMap (comma :: ·)).length := by
        clear h
        induction parts with
        | nil => exact Nat.le_refl 0
        | cons part parts ih =>
            rw [List.flatMap_cons, List.length_append, List.length_cons, List.length_cons]
            omega
      obtain rfl : inner = _ := h
      simp only [List.length_append, List.length_cons]
      omega

theorem head_of_readValue {depth : Nat} {text : Bytes} {x : Json × Bytes}
    (h : readValue depth text = some x) :
    ∃ b rest, skipBlank text = b :: rest ∧ endsScalar b = false := by
  cases depth with
  | zero => cases h
  | succ depth =>
      rw [readValue] at h
      cases htext : skipBlank text with
      | nil =>
          rw [htext] at h
          cases h
      | cons b rest =>
          refine ⟨b, rest, rfl, ?_⟩
          rw [htext] at h
          rw [endsScalar, Bool.or_eq_false_iff, Bool.or_eq_false_iff]
          refine ⟨⟨?_, ?_⟩, ?_⟩
          all_goals
            rw [beq_eq_false_iff_ne]
            rintro rfl
            cases h

section Sequences

variable {depth : Nat} {parts : List Bytes}

theorem readItems_parts {items : List Json}
    (h : List.Forall₂ (Reads (readValue depth)) parts items) {fuel : Nat}
    (hfuel : parts.length < fuel) (rest : Bytes) :
    readItems (readValue depth) fuel false (parts.flatMap (comma :: ·) ++ closeBracket :: rest) =
      some (items, rest) := by
  -- An item may leave white space before the next separator, which the reader skips anyway.
  induction h generalizing fuel with
  | nil =>
      obtain ⟨fuel, rfl⟩ := Nat.exists_add_one_eq.2 hfuel
      rfl
  | @cons part j parts items hpart hparts ih =>
      obtain ⟨fuel, rfl⟩ := Nat.exists_add_one_eq.2 (Nat.zero_lt_of_lt hfuel)
      have hends : endsScalar closeBracket := by decide
      obtain ⟨more, hread, hmore⟩ := hpart _ (ends_rest parts hends rest)
      have hothers := ih (Nat.lt_of_succ_lt_succ hfuel)
      rw [← hmore, readItems_skipBlank] at hothers
      rw [List.flatMap_cons, List.append_assoc, List.cons_append, readItems,
        skipBlank_cons (by decide)]
      simp only [hread, hothers, Option.bind_eq_bind, Option.bind_some]
      rfl

theorem readItems_listed {items : List Json}
    (h : List.Forall₂ (Reads (readValue depth)) parts items) {inner : Bytes}
    (hinner : Listed parts inner) {fuel : Nat} (hfuel : parts.length < fuel) (rest : Bytes) :
    readItems (readValue depth) fuel true (inner ++ closeBracket :: rest) = some (items, rest) := by
  obtain ⟨fuel, rfl⟩ := Nat.exists_add_one_eq.2 (Nat.zero_lt_of_lt hfuel)
  cases h with
  | nil =>
      rw [readItems, skipBlank_append hinner, skipBlank_cons (by decide)]
      rfl
  | @cons part j parts items hpart hparts =>
      have hends : endsScalar closeBracket := by decide
      obtain ⟨more, hread, hmore⟩ := hpart _ (ends_rest parts hends rest)
      have hothers := readItems_parts hparts (Nat.lt_of_succ_lt_succ hfuel) rest
      rw [← hmore, readItems_skipBlank] at hothers
      obtain ⟨b, text, htext, hb⟩ := head_of_readValue hread
      rw [← readValue_skipBlank, htext] at hread
      have hclose : b ≠ closeBracket := by
        rintro rfl
        cases hb
      have hcomma : b ≠ comma := by
        rintro rfl
        cases hb
      obtain rfl : inner = _ := hinner
      rw [List.append_assoc, readItems, htext]
      simp only [if_neg hclose, if_neg hcomma, if_true, hread, hothers, Option.bind_eq_bind,
        Option.bind_some]

/-- A member by itself. -/
def readMember (depth : Nat) (text : Bytes) : Option ((String × Json) × Bytes) := do
  let (name, rest) ← readName (skipBlank text)
  let (j, rest) ← readValue depth rest
  some ((name, j), rest)

theorem head_of_readName {text : Bytes} {x : String × Bytes} (h : readName text = some x) :
    ∃ rest, text = quote :: rest := by
  cases text with
  | nil => cases h
  | cons b rest =>
      refine ⟨rest, ?_⟩
      by_cases hb : b = quote
      · rw [hb]
      · rw [readName, if_neg hb] at h
        cases h

theorem readMembers_comma (fuel : Nat) (text : Bytes) :
    readMembers (readValue depth) (fuel + 1) false (comma :: text) =
      (readMember depth text).bind fun x =>
        (readMembers (readValue depth) fuel false x.2).bind fun y => some (x.1 :: y.1, y.2) := by
  have hbrace : comma ≠ closeBrace := by decide
  rw [readMembers, skipBlank_cons (by decide)]
  simp only [if_neg hbrace, Bool.false_eq_true, if_false, if_true, readMember,
    Option.bind_eq_bind, Option.bind_some, Option.bind_assoc]

theorem readMembers_first (fuel : Nat) {text more : Bytes} {m : String × Json}
    (h : readMember depth text = some (m, more)) :
    readMembers (readValue depth) (fuel + 1) true text =
      (readMembers (readValue depth) fuel false more).bind fun y => some (m :: y.1, y.2) := by
  obtain ⟨⟨name, content⟩, hname, hrest⟩ := Option.bind_eq_some_iff.1 h
  obtain ⟨⟨j, rest⟩, hvalue, hm⟩ := Option.bind_eq_some_iff.1 hrest
  obtain ⟨start, hstart⟩ := head_of_readName hname
  have hbrace : quote ≠ closeBrace := by decide
  cases hm
  rw [readMembers, hstart]
  rw [hstart] at hname
  simp only [if_neg hbrace, if_true, hname, hvalue, Option.bind_eq_bind, Option.bind_some]

theorem readMembers_parts {members : List (String × Json)}
    (h : List.Forall₂ (Reads (readMember depth)) parts members) {fuel : Nat}
    (hfuel : parts.length < fuel) (rest : Bytes) :
    readMembers (readValue depth) fuel false (parts.flatMap (comma :: ·) ++ closeBrace :: rest) =
      some (members, rest) := by
  induction h generalizing fuel with
  | nil =>
      obtain ⟨fuel, rfl⟩ := Nat.exists_add_one_eq.2 hfuel
      rfl
  | @cons part m parts members hpart hparts ih =>
      obtain ⟨fuel, rfl⟩ := Nat.exists_add_one_eq.2 (Nat.zero_lt_of_lt hfuel)
      have hends : endsScalar closeBrace := by decide
      obtain ⟨more, hread, hmore⟩ := hpart _ (ends_rest parts hends rest)
      have hothers := ih (Nat.lt_of_succ_lt_succ hfuel)
      rw [← hmore, readMembers_skipBlank] at hothers
      rw [List.flatMap_cons, List.append_assoc, List.cons_append, readMembers_comma, hread,
        Option.bind_some, hothers]
      rfl

theorem readMembers_listed {members : List (String × Json)}
    (h : List.Forall₂ (Reads (readMember depth)) parts members) {inner : Bytes}
    (hinner : Listed parts inner) {fuel : Nat} (hfuel : parts.length < fuel) (rest : Bytes) :
    readMembers (readValue depth) fuel true (inner ++ closeBrace :: rest) =
      some (members, rest) := by
  obtain ⟨fuel, rfl⟩ := Nat.exists_add_one_eq.2 (Nat.zero_lt_of_lt hfuel)
  cases h with
  | nil =>
      rw [readMembers, skipBlank_append hinner, skipBlank_cons (by decide)]
      rfl
  | @cons part m parts members hpart hparts =>
      have hends : endsScalar closeBrace := by decide
      obtain ⟨more, hread, hmore⟩ := hpart _ (ends_rest parts hends rest)
      have hothers := readMembers_parts hparts (Nat.lt_of_succ_lt_succ hfuel) rest
      rw [← hmore, readMembers_skipBlank] at hothers
      obtain rfl : inner = _ := hinner
      rw [List.append_assoc, readMembers_first fuel hread, hothers]
      rfl

end Sequences

/-! ## Values -/

section Values

variable {depth : Nat}

theorem reads_padded {j : Json} {core before after : Bytes} (hbefore : Blank before)
    (hafter : Blank after) (h : ∀ rest, readValue depth (core ++ rest) = some (j, rest)) :
    Reads (readValue depth) (before ++ core ++ after) j := by
  intro rest hrest
  refine ⟨after ++ rest, ?_, ?_⟩
  · rw [← readValue_skipBlank, List.append_assoc, List.append_assoc, skipBlank_append hbefore,
      readValue_skipBlank]
    exact h _
  · rw [skipBlank_append hafter]
    exact hrest.skipBlank

theorem reads_token {core before after : Bytes} (hcore : Plain core) (hbefore : Blank before)
    (hafter : Blank after) :
    Reads (readValue (depth + 1)) (before ++ core ++ after) (scalar (core ++ after)) := by
  intro rest hrest
  refine ⟨rest, ?_, hrest.skipBlank⟩
  rw [← readValue_skipBlank, List.append_assoc, List.append_assoc, skipBlank_append hbefore,
    readValue_skipBlank]
  exact readValue_token hcore hafter.isBlank hrest depth

theorem readValue_quotes {s : String} {text : Bytes} (h : Quotes s text) (rest : Bytes) :
    readValue (depth + 1) (text ++ rest) = some (.str s, rest) := by
  obtain ⟨body, hspells, rfl⟩ := h
  rw [List.cons_append, List.append_assoc, List.singleton_append, readValue,
    skipBlank_cons (by decide)]
  simp only [if_true, Quoted.read_of_spells hspells, Option.map_some]

theorem readValue_array {parts : List Bytes} {items : List Json} {text : Bytes}
    (h : List.Forall₂ (Reads (readValue (depth + 1))) parts items)
    (htext : Enclosed openBracket closeBracket parts text) (rest : Bytes) :
    readValue (depth + 2) (text ++ rest) = some (.arr items, rest) := by
  obtain ⟨inner, hinner, rfl⟩ := htext
  have hread := readItems_listed h hinner (length_lt_listed hinner closeBracket rest) rest
  rw [List.cons_append, List.append_assoc, List.singleton_append, readValue,
    skipBlank_cons (by decide)]
  simp only [if_neg (show openBracket ≠ quote by decide), if_true, Nat.add_one_ne_zero, if_false,
    hread, Option.map_some]

theorem readValue_object {parts : List Bytes} {members : List (String × Json)} {text : Bytes}
    (h : List.Forall₂ (Reads (readMember (depth + 1))) parts members)
    (htext : Enclosed openBrace closeBrace parts text) (rest : Bytes) :
    readValue (depth + 2) (text ++ rest) = some (.obj members, rest) := by
  obtain ⟨inner, hinner, rfl⟩ := htext
  have hread := readMembers_listed h hinner (length_lt_listed hinner closeBrace rest) rest
  rw [List.cons_append, List.append_assoc, List.singleton_append, readValue,
    skipBlank_cons (by decide)]
  simp only [if_neg (show openBrace ≠ quote by decide),
    if_neg (show openBrace ≠ openBracket by decide), if_true, Nat.add_one_ne_zero, if_false,
    hread, Option.map_some]

theorem reads_member {s : String} {j : Json} {front content : Bytes}
    (hfront : Padded (Quotes s) front) (hcontent : Reads (readValue depth) content j) :
    Reads (readMember depth) (front ++ colon :: content) (s, j) := by
  obtain ⟨before, name, after, hbefore, ⟨body, hspells, rfl⟩, hafter, rfl⟩ := hfront
  intro rest hrest
  obtain ⟨more, hread, hmore⟩ := hcontent rest hrest
  refine ⟨more, ?_, hmore⟩
  have hname : readName (skipBlank (before ++ quote :: (body ++ [quote]) ++ after ++
      colon :: content ++ rest)) = some (s, content ++ rest) := by
    simp only [List.append_assoc, List.cons_append, List.nil_append]
    rw [skipBlank_append hbefore, skipBlank_cons (by decide), readName]
    simp only [if_true, Quoted.read_of_spells hspells, Option.bind_eq_bind, Option.bind_some]
    rw [skipBlank_append hafter, skipBlank_cons (by decide)]
    rfl
  rw [readMember, hname]
  simp only [Option.bind_eq_bind, Option.bind_some, hread]

theorem exists_forall₂ {α β : Type} {r : α → β → Prop} {xs : List α} (h : ∀ x ∈ xs, ∃ y, r x y) :
    ∃ ys, List.Forall₂ r xs ys := by
  induction xs with
  | nil => exact ⟨[], .nil⟩
  | cons x xs ih =>
      rw [List.forall_mem_cons] at h
      obtain ⟨y, hy⟩ := h.1
      obtain ⟨ys, hys⟩ := ih h.2
      exact ⟨y :: ys, .cons hy hys⟩

variable {string : Bytes → Prop}

theorem exists_reads_scalar (hstring : ∀ text, string text → Spelled text) {text : Bytes}
    (h : Padded (fun t => Literal t ∨ Number t ∨ string t) text) :
    ∃ j, Reads (readValue (depth + 1)) text j := by
  obtain ⟨before, core, after, hbefore, hcore, hafter, rfl⟩ := h
  rcases hcore with hliteral | hnumber | hcore
  · exact ⟨_, reads_token hliteral.plain hbefore hafter⟩
  · exact ⟨_, reads_token hnumber.plain hbefore hafter⟩
  · obtain ⟨s, hs⟩ := hstring core hcore
    exact ⟨.str s, reads_padded hbefore hafter (readValue_quotes hs)⟩

/-- A value of the grammar is read, as long as its strings spell texts. -/
theorem exists_reads (hstring : ∀ text, string text → Spelled text) {text : Bytes}
    (h : Padded (IsValue string depth) text) : ∃ j, Reads (readValue (depth + 1)) text j := by
  -- The reader goes down one level for each array or object, and so does the grammar.
  induction depth generalizing text with
  | zero => exact exists_reads_scalar hstring h
  | succ depth ih =>
      obtain ⟨before, core, after, hbefore, hcore, hafter, rfl⟩ := h
      rcases hcore with hscalar | ⟨parts, hparts, htext⟩ | ⟨parts, hparts, htext⟩
      · exact exists_reads_scalar hstring ⟨before, core, after, hbefore, hscalar, hafter, rfl⟩
      · obtain ⟨items, hitems⟩ := exists_forall₂ fun part hpart => ih (hparts part hpart)
        exact ⟨.arr items, reads_padded hbefore hafter (readValue_array hitems htext)⟩
      · have hmembers : ∀ part ∈ parts, ∃ m, Reads (readMember (depth + 1)) part m := by
          intro part hpart
          obtain ⟨front, content, hfront, hcontent, rfl⟩ := hparts part hpart
          obtain ⟨before, name, after, hbefore, hname, hafter, rfl⟩ := hfront
          obtain ⟨s, hs⟩ := hstring name hname
          obtain ⟨j, hj⟩ := ih hcontent
          exact ⟨(s, j), reads_member ⟨before, name, after, hbefore, hs, hafter, rfl⟩ hj⟩
        obtain ⟨members, hmembers⟩ := exists_forall₂ hmembers
        exact ⟨.obj members, reads_padded hbefore hafter (readValue_object hmembers htext)⟩

/-- The text of an object is read as its members. -/
theorem read?_object {parts : List Bytes} {members : List (String × Json)} {text : Bytes}
    (h : List.Forall₂ (Reads (readMember (maxDepth - 1))) parts members)
    (htext : Padded (Enclosed openBrace closeBrace parts) text) :
    read? text = some (.obj members) := by
  obtain ⟨before, core, after, hbefore, hcore, hafter, rfl⟩ := htext
  have hread := @readValue_object 126 parts members core h hcore after
  have hblank : skipBlank after = [] := by
    have hskip := skipBlank_append hafter []
    rwa [List.append_nil] at hskip
  rw [read?]
  change (readValue (126 + 2) _ >>= _) = _
  rw [← readValue_skipBlank, List.append_assoc, skipBlank_append hbefore, readValue_skipBlank,
    hread, Option.bind_eq_bind, Option.bind_some]
  simp only [hblank]
  rfl

end Values

/-! ## What is written -/

theorem listed_printItems (items : List Json) : Listed (items.map print) (printItems items) := by
  cases items with
  | nil => nofun
  | cons j items => rw [printItems_cons, List.map_cons, Listed, List.flatMap_map]

theorem listed_printMembers (members : List (String × Json)) :
    Listed (members.map printMember) (printMembers members) := by
  cases members with
  | nil => nofun
  | cons m members => rw [printMembers_cons, List.map_cons, Listed, List.flatMap_map]

theorem readValue_scalar {j : Json} (h : j.IsScalar) {rest : Bytes} (hrest : Ends rest)
    (depth : Nat) : readValue (depth + 1) (j.print ++ rest) = some (j, rest) := by
  obtain ⟨hplain, hvalue⟩ := scalar_print h
  have hread := @readValue_token _ [] rest hplain nofun hrest depth
  rwa [List.nil_append, List.append_nil, hvalue] at hread

/-- A value is read from its text, up to its end. -/
theorem readValue_print {depth : Nat} {j : Json} (h : j.Fits depth) {rest : Bytes}
    (hrest : j.Closed ∨ Ends rest) : readValue (depth + 1) (j.print ++ rest) = some (j, rest) := by
  -- The reader goes down one level for each array or object, as `Fits` does.
  induction depth, j using Fits.induct generalizing rest with
  | case1 => exact readValue_scalar (j := null) trivial (hrest.resolve_left id) _
  | case2 depth b => exact readValue_scalar (j := bool b) trivial (hrest.resolve_left id) _
  | case3 depth n => exact readValue_scalar (j := nat n) trivial (hrest.resolve_left id) _
  | case4 depth s => exact readValue_quotes (Quoted.quotes_write s) rest
  | case5 depth items ih =>
      have hitems : List.Forall₂ (Reads (readValue (depth + 1))) (items.map print) items := by
        rw [List.forall₂_map_left_iff, List.forall₂_same]
        exact fun j hj => .of_eq fun rest hends => ih j (h j hj) (.inr hends)
      exact readValue_array hitems ⟨_, listed_printItems items, rfl⟩ rest
  | case6 depth members ih =>
      have hmembers : List.Forall₂ (Reads (readMember (depth + 1))) (members.map printMember)
          members := by
        rw [List.forall₂_map_left_iff, List.forall₂_same]
        intro m hm
        apply reads_member (.of (Quoted.quotes_write m.1))
        exact .of_eq fun rest hends => ih m (h m hm) (.inr hends)
      exact readValue_object hmembers ⟨_, listed_printMembers members, rfl⟩ rest
  | case7 depth j hnull hbool hnat hstr harr hobj =>
      rw [Fits.eq_7 depth j hnull hbool hnat hstr harr hobj] at h
      exact h.elim

/-- The text of a closed value is read as the value. -/
theorem read?_print {j : Json} (h : j.Fits (maxDepth - 1)) (hclosed : j.Closed) :
    read? j.print = some j := by
  have hread := @readValue_print _ _ h [] (.inl hclosed)
  rw [List.append_nil] at hread
  rw [read?]
  change (readValue (maxDepth - 1 + 1) j.print >>= _) = _
  rw [hread]
  rfl

end Json

end Custody
