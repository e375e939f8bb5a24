import Custody.Bech32.Checksum

/-!
# Bech32 strings

A human-readable part, the separator `1`, data symbols and a checksum. Either case will do, but
not both in one string; the text has no length limit of its own.
-/

namespace Custody.Bech32

inductive Fault where
  | missingSeparator
  | invalidCharacter (c : Char)
  | mixedCase
  | invalidLength
  | invalidChecksum
  | invalidPadding
  deriving DecidableEq, Repr

def Fault.message : Fault → String
  | .missingSeparator => "missing human-readable separator, \"1\""
  | .invalidCharacter c => s!"invalid character (code={c})"
  | .mixedCase => "mixed-case strings not allowed"
  | .invalidLength => "invalid length"
  | .invalidChecksum => "invalid checksum"
  | .invalidPadding => "invalid padding"

/-- The case of the letters seen so far. -/
inductive Letters where
  | unseen
  | lower
  | upper
  deriving DecidableEq, Repr

def Letters.see (seen : Letters) (c : Char) : Except Fault Letters :=
  if c.isLower then if seen = .upper then .error .mixedCase else .ok .lower
  else if c.isUpper then if seen = .lower then .error .mixedCase else .ok .upper
  else .ok seen

/-- Each byte of a human-readable part is a visible ASCII character. -/
def visibleBytes (seen : Letters) : Bytes → Except Fault Letters
  | [] => .ok seen
  | b :: rest =>
    if 33 ≤ b ∧ b ≤ 126 then do
      let seen ← seen.see (Char.ofNat b.toNat)
      visibleBytes seen rest
    else .error (.invalidCharacter (Char.ofNat b.toNat))

def readablePart (hrp : String) : Except Fault Letters :=
  let b := Bytes.ofString hrp
  if b.isEmpty ∨ 83 < b.length then .error .invalidLength else visibleBytes .unseen b

/-- An all upper-case part is lowered; others stay as they are. -/
def lowered (hrp : String) (seen : Letters) : String :=
  if seen = .upper then String.ofList (hrp.toList.map Char.toLower) else hrp

def readData (seen : Letters) : List Char → Except Fault (List Symbol)
  | [] => .ok []
  | c :: rest =>
    if c.toNat < 128 then do
      let seen ← seen.see c
      match Symbol.ofChar? c with
      | none => .error (.invalidCharacter c)
      | some s => (readData seen rest).map (s :: ·)
    else .error (.invalidCharacter c)

/-- Cuts at the last separator. -/
def splitLast (s : String) : Option (String × List Char) :=
  let back := s.toList.reverse
  match back.dropWhile (· != '1') with
  | [] => none
  | _ :: hrp => some (String.ofList hrp.reverse, (back.takeWhile (· != '1')).reverse)

structure Decoded where
  hrp : String
  data : List Symbol
  variant : Variant

def decode (s : String) : Except Fault Decoded := do
  let some (raw, tail) := splitLast s | .error .missingSeparator
  let seen ← readablePart raw
  let hrp := lowered raw seen
  let data ← readData seen tail
  if data.length < 6 then .error .invalidLength
  else match variant? hrp data with
    | none => .error .invalidChecksum
    | some variant => .ok ⟨hrp, data.take (data.length - 6), variant⟩

def encode (hrp : String) (data : List Symbol) : Except Fault String := do
  let seen ← readablePart hrp
  let hrp := lowered hrp seen
  .ok (hrp ++ "1" ++ String.ofList ((data ++ checksum hrp data .bech32).map Symbol.toChar))

end Custody.Bech32
