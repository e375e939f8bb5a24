import Custody.Bytes

/-!
# UTF-8 faults

Where a byte string stops being UTF-8: the length of its longest valid beginning, and whether what
follows is wrong or merely cut short.
-/

namespace Custody.Text.Utf8

inductive Fault where
  /-- After `index` valid bytes, the next `length` bytes begin no character. -/
  | invalid (index length : Nat)
  /-- After `index` valid bytes, the input ends inside a character. -/
  | incomplete (index : Nat)
  deriving DecidableEq, Repr

def Fault.message : Fault → String
  | .invalid index length => s!"invalid utf-8 sequence of {length} bytes from index {index}"
  | .incomplete index => s!"incomplete utf-8 byte sequence from index {index}"

/-- The ranges of the bytes that must follow a leading byte. -/
def continuations (lead : UInt8) : Option (List (UInt8 × UInt8)) :=
  if lead < 0x80 then some []
  else if lead < 0xC2 then none
  else if lead < 0xE0 then some [(0x80, 0xBF)]
  else if lead = 0xE0 then some [(0xA0, 0xBF), (0x80, 0xBF)]
  else if lead = 0xED then some [(0x80, 0x9F), (0x80, 0xBF)]
  else if lead < 0xF0 then some [(0x80, 0xBF), (0x80, 0xBF)]
  else if lead = 0xF0 then some [(0x90, 0xBF), (0x80, 0xBF), (0x80, 0xBF)]
  else if lead < 0xF4 then some [(0x80, 0xBF), (0x80, 0xBF), (0x80, 0xBF)]
  else if lead = 0xF4 then some [(0x80, 0x8F), (0x80, 0xBF), (0x80, 0xBF)]
  else none

/-- Walks on from a character that began at `start`, of which `seen` bytes were read and `pending`
are still to come. -/
def scan (start seen : Nat) (pending : List (UInt8 × UInt8)) : Bytes → Option Fault
  | [] => if pending.isEmpty then none else some (.incomplete start)
  | b :: rest =>
    match pending with
    | [] =>
      match continuations b with
      | none => some (.invalid start 1)
      | some [] => scan (start + 1) 0 [] rest
      | some more => scan start 1 more rest
    | (low, high) :: more =>
      if low ≤ b ∧ b ≤ high then
        if more.isEmpty then scan (start + seen + 1) 0 [] rest else scan start (seen + 1) more rest
      else some (.invalid start seen)

/-- The text of UTF-8 bytes, or the first fault in them. -/
def decode (b : Bytes) : Except Fault String :=
  match b.toString? with
  | some s => .ok s
  | none => .error ((scan 0 0 [] b).getD (.incomplete b.length))

@[simp] theorem decode_ofString (s : String) : decode (Bytes.ofString s) = .ok s := by
  simp [decode]

end Custody.Text.Utf8
