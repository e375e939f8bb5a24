import Custody.Json.Quoted

/-!
# Reading JSON text

A reader on bytes: structure and strings are checked, scalars are cut off at the next separator and
recognised afterwards. `Json.read?` takes a whole text.
-/

namespace Custody.Json

open Ascii

def isBlank (b : UInt8) : Bool := b == 0x20 || b == 0x0A || b == 0x09 || b == 0x0D

def skipBlank (b : Bytes) : Bytes := b.dropWhile isBlank

def endsScalar (b : UInt8) : Bool := b == comma || b == closeBrace || b == closeBracket

def isDigit (b : UInt8) : Bool := 0x30 ≤ b && b ≤ 0x39

/-- The number of a zero, or of digits that start with another one. -/
def nat? : Bytes → Option Nat
  | [] => none
  | b :: rest =>
    if (b :: rest).all isDigit && (b != 0x30 || rest.isEmpty) then
      some ((b :: rest).foldl (fun n d => n * 10 + (d.toNat - 0x30)) 0)
    else none

/-- Recognises the text of a scalar; blanks at its end do not count. -/
def scalar (text : Bytes) : Json :=
  let core := (text.reverse.dropWhile isBlank).reverse
  if core = Bytes.ofString "null" then .null
  else if core = Bytes.ofString "true" then .bool true
  else if core = Bytes.ofString "false" then .bool false
  else match nat? core with
    | some n => .nat n
    | none => .other text

/-- Items up to the closing bracket. Until an item has stood without a comma before it, one may. -/
def readItems (item : Bytes → Option (Json × Bytes)) :
    Nat → Bool → Bytes → Option (List Json × Bytes)
  | 0, _, _ => none
  | fuel + 1, first, text =>
    match skipBlank text with
    | [] => none
    | b :: rest =>
      if b = closeBracket then some ([], rest)
      else if b = comma then do
        let (j, rest) ← item rest
        let (js, rest) ← readItems item fuel first rest
        some (j :: js, rest)
      else if first then do
        let (j, rest) ← item (b :: rest)
        let (js, rest) ← readItems item fuel false rest
        some (j :: js, rest)
      else none

/-- A member's name and the colon after it. -/
def readName (text : Bytes) : Option (String × Bytes) :=
  match text with
  | [] => none
  | b :: rest =>
    if b = quote then do
      let (name, rest) ← Quoted.read rest
      match skipBlank rest with
      | [] => none
      | c :: rest => if c = colon then some (name, rest) else none
    else none

/-- Members up to the closing brace, a comma between each two. -/
def readMembers (item : Bytes → Option (Json × Bytes)) :
    Nat → Bool → Bytes → Option (List (String × Json) × Bytes)
  | 0, _, _ => none
  | fuel + 1, first, text =>
    match skipBlank text with
    | [] => none
    | b :: rest =>
      if b = closeBrace then some ([], rest)
      else do
        let start ← if first then some (b :: rest)
          else if b = comma then some (skipBlank rest) else none
        let (name, rest) ← readName start
        let (j, rest) ← item rest
        let (js, rest) ← readMembers item fuel false rest
        some ((name, j) :: js, rest)

/-- A value inside fewer than `depth` further levels of brackets and braces. -/
def readValue : Nat → Bytes → Option (Json × Bytes)
  | 0, _ => none
  | depth + 1, text =>
    match skipBlank text with
    | [] => none
    | b :: rest =>
      if b = quote then (Quoted.read rest).map fun p => (.str p.1, p.2)
      else if b = openBracket then
        if depth = 0 then none
        else
          (readItems (readValue depth) (rest.length + 1) true rest).map fun p => (.arr p.1, p.2)
      else if b = openBrace then
        if depth = 0 then none
        else
          (readMembers (readValue depth) (rest.length + 1) true rest).map fun p => (.obj p.1, p.2)
      else if endsScalar b then none
      else
        let text := b :: rest
        let tail := text.dropWhile (!endsScalar ·)
        if tail.isEmpty then none
        else some (scalar (text.takeWhile (!endsScalar ·)), tail)

/-- One more than the levels that a text may nest. -/
def maxDepth : Nat := 128

/-- The value of a whole text, which is a string, an array or an object: a scalar ends at a
separator, and at the top there is none. -/
def read? (text : Bytes) : Option Json := do
  let (j, rest) ← readValue maxDepth text
  if (skipBlank rest).isEmpty then some j else none

end Custody.Json
