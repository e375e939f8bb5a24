import Custody.Json.Basic

/-!
# Quoted strings

Writing escapes the quote, the backslash and the controls and leaves all else as it is. Reading
takes a string without a backslash as it stands, controls included; a string with one may hold no
raw control.
-/

namespace Custody.Json.Quoted

open Ascii

def hexDigit (n : Nat) : UInt8 := (Nat.digitChar n).toUpper.toUInt8

/-- The letter of a two-byte escape. -/
def letter? (b : UInt8) : Option UInt8 :=
  if b = quote then some quote
  else if b = backslash then some backslash
  else if b = 0x08 then some 0x62
  else if b = 0x09 then some 0x74
  else if b = 0x0A then some 0x6E
  else if b = 0x0C then some 0x66
  else if b = 0x0D then some 0x72
  else none

def escape (b : UInt8) : Bytes :=
  match letter? b with
  | some e => [backslash, e]
  | none =>
    if b < 0x20 then
      [backslash, 0x75, 0x30, 0x30, hexDigit (b.toNat / 16), hexDigit (b.toNat % 16)]
    else [b]

def write (s : String) : Bytes := quote :: (Bytes.ofString s).flatMap escape ++ [quote]

/-- What stands before the closing quote, and what comes after it. A backslash hides the byte that
follows it. -/
def content (hidden : Bool) : Bytes → Option (Bytes × Bytes)
  | [] => none
  | b :: rest =>
    if hidden then (content false rest).map fun p => (b :: p.1, p.2)
    else if b = quote then some ([], rest)
    else (content (b == backslash) rest).map fun p => (b :: p.1, p.2)

/-- The byte that a two-byte escape stands for; a slash may be escaped though it need not. -/
def unletter? (e : UInt8) : Option UInt8 :=
  if e = quote then some quote
  else if e = backslash then some backslash
  else if e = slash then some slash
  else if e = 0x62 then some 0x08
  else if e = 0x74 then some 0x09
  else if e = 0x6E then some 0x0A
  else if e = 0x66 then some 0x0C
  else if e = 0x72 then some 0x0D
  else none

def nibble? (b : UInt8) : Option Nat :=
  if 0x30 ≤ b ∧ b ≤ 0x39 then some (b.toNat - 0x30)
  else if 0x41 ≤ b ∧ b ≤ 0x46 then some (b.toNat - 0x41 + 10)
  else if 0x61 ≤ b ∧ b ≤ 0x66 then some (b.toNat - 0x61 + 10)
  else none

/-- The 16-bit unit of four hexadecimal digits. -/
def unit? (a b c d : UInt8) : Option Nat := do
  let a ← nibble? a
  let b ← nibble? b
  let c ← nibble? c
  let d ← nibble? d
  some (((a * 16 + b) * 16 + c) * 16 + d)

def isHigh (unit : Nat) : Bool := 0xD800 ≤ unit && unit < 0xDC00

def isLow (unit : Nat) : Bool := 0xDC00 ≤ unit && unit < 0xE000

def codePoint (n : Nat) : Bytes := String.utf8EncodeChar (Char.ofNat n)

/-- Resolves the escapes. While a high surrogate waits for its low one, other escapes may come
between them, but no raw byte. -/
def unescape (high : Option Nat) : Bytes → Option Bytes
  | [] => if high.isNone then some [] else none
  | b :: rest =>
    if b = backslash then
      match rest with
      | [] => none
      | e :: more =>
        if e = 0x75 then
          match more with
          | p :: q :: r :: s :: tail =>
            match unit? p q r s, high with
            | none, _ => none
            | some unit, none =>
              if isHigh unit then unescape (some unit) tail
              else if isLow unit then none
              else (unescape none tail).map (codePoint unit ++ ·)
            | some unit, some first =>
              if isHigh unit then none
              else if isLow unit then
                (unescape none tail).map
                  (codePoint (0x10000 + (first - 0xD800) * 0x400 + (unit - 0xDC00)) ++ ·)
              else (unescape high tail).map (codePoint unit ++ ·)
          | _ => none
        else
          match unletter? e with
          | none => none
          | some x => (unescape high more).map (x :: ·)
    else if b < 0x20 ∨ high.isSome then none
    else (unescape none rest).map (b :: ·)

/-- Reads a string whose opening quote has been read. -/
def read (b : Bytes) : Option (String × Bytes) := do
  let (raw, rest) ← content false b
  let plain ← if backslash ∈ raw then unescape none raw else some raw
  let s ← plain.toString?
  some (s, rest)

end Custody.Json.Quoted
