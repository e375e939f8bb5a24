import Custody.Proofs.Json.Text

/-!
# The grammar of JSON text

What is JSON text, whoever has written it: white space around every token, numbers in all their
forms, strings with whichever characters escaped. What counts as a string is left open, since an
escape may stand for half of a character only, and a string with such an escape is no text.
-/

namespace Custody.Json.Grammar

open Ascii

/-- White space. -/
def Blank (text : Bytes) : Prop := ∀ b ∈ text, b = 0x20 ∨ b = 0x09 ∨ b = 0x0A ∨ b = 0x0D

def Padded (p : Bytes → Prop) (text : Bytes) : Prop :=
  ∃ before core after, Blank before ∧ p core ∧ Blank after ∧ text = before ++ core ++ after

theorem Padded.of {p : Bytes → Prop} {text : Bytes} (h : p text) : Padded p text :=
  ⟨[], text, [], nofun, h, nofun, by simp⟩

/-! ## Literals and numbers -/

def Literal (text : Bytes) : Prop :=
  text = Bytes.ofString "null" ∨ text = Bytes.ofString "true" ∨ text = Bytes.ofString "false"

def Digits (text : Bytes) : Prop := text ≠ [] ∧ ∀ b ∈ text, 0x30 ≤ b ∧ b ≤ 0x39

/-- A zero, or digits that start with another one. -/
def Whole (text : Bytes) : Prop := text = [0x30] ∨ Digits text ∧ text.head? ≠ some 0x30

def Fraction (text : Bytes) : Prop := text = [] ∨ ∃ digits, Digits digits ∧ text = 0x2E :: digits

def Exponent (text : Bytes) : Prop :=
  text = [] ∨ ∃ letter sign digits, (letter = 0x65 ∨ letter = 0x45) ∧
    (sign = [] ∨ sign = [0x2B] ∨ sign = [0x2D]) ∧ Digits digits ∧ text = letter :: (sign ++ digits)

def Number (text : Bytes) : Prop :=
  ∃ sign whole fraction exponent, (sign = [] ∨ sign = [0x2D]) ∧ Whole whole ∧ Fraction fraction ∧
    Exponent exponent ∧ text = sign ++ (whole ++ (fraction ++ exponent))

theorem Literal.plain {text : Bytes} (h : Literal text) : Plain text := by
  rcases h with rfl | rfl | rfl
  · exact .of_all (by decide) (by decide)
  · exact .of_all (by decide) (by decide)
  · exact .of_all (by decide) (by decide)

theorem Digits.plain {text : Bytes} (h : Digits text) : Plain text where
  ne_nil := h.1
  plain b hb := by
    apply isPlain_of_isDigit
    simpa [isDigit] using h.2 b hb

theorem Whole.plain {text : Bytes} (h : Whole text) : Plain text := by
  rcases h with rfl | ⟨hdigits, -⟩
  · exact .of_all (by decide) (by decide)
  · exact hdigits.plain

theorem Fraction.plain {text : Bytes} (h : Fraction text) : ∀ b ∈ text, isPlain b := by
  rcases h with rfl | ⟨digits, hdigits, rfl⟩
  · nofun
  · exact List.forall_mem_cons.2 ⟨by decide, hdigits.plain.plain⟩

theorem Exponent.plain {text : Bytes} (h : Exponent text) : ∀ b ∈ text, isPlain b := by
  rcases h with rfl | ⟨letter, sign, digits, hletter, hsign, hdigits, rfl⟩
  · nofun
  · refine List.forall_mem_cons.2 ⟨?_, List.forall_mem_append.2 ⟨?_, hdigits.plain.plain⟩⟩
    · rcases hletter with rfl | rfl
      · decide
      · decide
    · rcases hsign with rfl | rfl | rfl
      · nofun
      · exact List.forall_mem_singleton.2 (by decide)
      · exact List.forall_mem_singleton.2 (by decide)

theorem Number.plain {text : Bytes} (h : Number text) : Plain text := by
  obtain ⟨sign, whole, fraction, exponent, hsign, hwhole, hfraction, hexponent, rfl⟩ := h
  refine ⟨by simp [hwhole.plain.ne_nil], List.forall_mem_append.2 ⟨?_, ?_⟩⟩
  · rcases hsign with rfl | rfl
    · nofun
    · exact List.forall_mem_singleton.2 (by decide)
  · exact List.forall_mem_append.2
      ⟨hwhole.plain.plain, List.forall_mem_append.2 ⟨hfraction.plain, hexponent.plain⟩⟩

/-! ## Strings -/

/-- The character may stand for itself in a string. -/
def Raw (c : Char) : Prop := 0x20 ≤ c.toNat ∧ c ≠ '"' ∧ c ≠ '\\'

instance (c : Char) : Decidable (Raw c) := inferInstanceAs (Decidable (_ ∧ _ ∧ _))

/-- What may follow a backslash, and the character that it then stands for. -/
def letters : List (UInt8 × Char) := [
  (0x22, '"'), (0x5C, '\\'), (0x2F, '/'), (0x62, '\x08'), (0x66, '\x0C'), (0x6E, '\n'),
  (0x72, '\r'), (0x74, '\t')]

/-- A hexadecimal digit, in either case. -/
def HexDigit (b : UInt8) (n : Nat) : Prop :=
  n < 16 ∧ (b = charByte (Nat.digitChar n) ∨ b = charByte (Nat.digitChar n).toUpper)

theorem HexDigit.lower {n : Nat} (hn : n < 16) : HexDigit (charByte (Nat.digitChar n)) n :=
  ⟨hn, .inl rfl⟩

/-- Four hexadecimal digits. -/
inductive CodeUnit : Bytes → Nat → Prop
  | mk {p q r s : UInt8} {i j k l : Nat} (hp : HexDigit p i) (hq : HexDigit q j)
      (hr : HexDigit r k) (hs : HexDigit s l) :
      CodeUnit [p, q, r, s] (((i * 16 + j) * 16 + k) * 16 + l)

/-- What stands between the quotes. Any four digits make an escape. -/
inductive Escaped : Bytes → Prop
  | nil : Escaped []
  | raw {c : Char} {text : Bytes} (hc : Raw c) (h : Escaped text) :
      Escaped (String.utf8EncodeChar c ++ text)
  | letter {e : UInt8} {c : Char} {text : Bytes} (he : (e, c) ∈ letters) (h : Escaped text) :
      Escaped (backslash :: e :: text)
  | unit {digits text : Bytes} {n : Nat} (hdigits : CodeUnit digits n) (h : Escaped text) :
      Escaped (backslash :: 0x75 :: (digits ++ text))

/-- The characters of a text, each as it is or escaped. A character beyond the first 65536 is
escaped as two halves. -/
inductive Spells : List Char → Bytes → Prop
  | nil : Spells [] []
  | raw {c : Char} {cs : List Char} {text : Bytes} (hc : Raw c) (h : Spells cs text) :
      Spells (c :: cs) (String.utf8EncodeChar c ++ text)
  | letter {e : UInt8} {c : Char} {cs : List Char} {text : Bytes} (he : (e, c) ∈ letters)
      (h : Spells cs text) : Spells (c :: cs) (backslash :: e :: text)
  | unit {digits text : Bytes} {c : Char} {cs : List Char} (hdigits : CodeUnit digits c.toNat)
      (h : Spells cs text) : Spells (c :: cs) (backslash :: 0x75 :: (digits ++ text))
  | pair {first second text : Bytes} {high low : Nat} {c : Char} {cs : List Char}
      (hhigh : high < 0x400) (hlow : low < 0x400) (hfirst : CodeUnit first (0xD800 + high))
      (hsecond : CodeUnit second (0xDC00 + low)) (hc : c.toNat = 0x10000 + high * 0x400 + low)
      (h : Spells cs text) : Spells (c :: cs)
        (backslash :: 0x75 :: (first ++ backslash :: 0x75 :: (second ++ text)))

/-- A string, whatever its escapes stand for. -/
def IsString (text : Bytes) : Prop := ∃ body, Escaped body ∧ text = quote :: (body ++ [quote])

/-- A string that spells the text. -/
def Quotes (s : String) (text : Bytes) : Prop :=
  ∃ body, Spells s.toList body ∧ text = quote :: (body ++ [quote])

/-- A string that spells some text. -/
def Spelled (text : Bytes) : Prop := ∃ s, Quotes s text

theorem Spells.escaped {cs : List Char} {text : Bytes} (h : Spells cs text) : Escaped text := by
  induction h with
  | nil => exact .nil
  | raw hc h ih => exact .raw hc ih
  | letter he h ih => exact .letter he ih
  | unit hdigits h ih => exact .unit hdigits ih
  | pair hhigh hlow hfirst hsecond hc h ih => exact .unit hfirst (.unit hsecond ih)

theorem Quotes.isString {s : String} {text : Bytes} (h : Quotes s text) : IsString text := by
  obtain ⟨body, hspells, rfl⟩ := h
  exact ⟨body, hspells.escaped, rfl⟩

/-! ## Values -/

/-- The parts with a comma between each two, or white space if there are none. -/
def Listed : List Bytes → Bytes → Prop
  | [], text => Blank text
  | part :: parts, text => text = part ++ parts.flatMap (comma :: ·)

def Enclosed (opening closing : UInt8) (parts : List Bytes) (text : Bytes) : Prop :=
  ∃ inner, Listed parts inner ∧ text = opening :: (inner ++ [closing])

/-- A name, a colon and a value. -/
def IsMember (name value : Bytes → Prop) (text : Bytes) : Prop :=
  ∃ front content, Padded name front ∧ Padded value content ∧ text = front ++ colon :: content

theorem IsMember.of {name value : Bytes → Prop} {front content : Bytes} (hname : name front)
    (hvalue : value content) : IsMember name value (front ++ colon :: content) :=
  ⟨front, content, .of hname, .of hvalue, rfl⟩

/-- A value inside of which arrays and objects nest that many levels at most. -/
def IsValue (string : Bytes → Prop) : Nat → Bytes → Prop
  | 0, text => Literal text ∨ Number text ∨ string text
  | depth + 1, text => (Literal text ∨ Number text ∨ string text) ∨
    (∃ parts, (∀ part ∈ parts, Padded (IsValue string depth) part) ∧
      Enclosed openBracket closeBracket parts text) ∨
    ∃ parts, (∀ part ∈ parts, IsMember string (IsValue string depth) part) ∧
      Enclosed openBrace closeBrace parts text

theorem IsValue.scalar {string : Bytes → Prop} {depth : Nat} {text : Bytes}
    (h : Literal text ∨ Number text ∨ string text) : IsValue string depth text := by
  cases depth with
  | zero => exact h
  | succ depth => exact .inl h

end Custody.Json.Grammar
