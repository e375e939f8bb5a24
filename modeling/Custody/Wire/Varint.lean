import Custody.Bytes

/-!
# Variable-length integers

Seven bits a byte, lowest first; all bytes but the last have their high bit set. A reader takes
ten bytes at most, and of the tenth only the lowest bit, so that every result is below 2 ^ 64.
-/

namespace Custody.Wire.Varint

def write (n : Nat) : Bytes :=
  if n < 128 then [UInt8.ofNat n] else UInt8.ofNat (n % 128 + 128) :: write (n / 128)
termination_by n
decreasing_by omega

/-- Reads a number of at most `left` bytes. -/
def readFrom : Nat → Bytes → Option (Nat × Bytes)
  | 0, _ => none
  | _ + 1, [] => none
  | left + 1, b :: rest =>
    if b < 128 then if left = 0 ∧ 2 ≤ b then none else some (b.toNat, rest)
    else (readFrom left rest).map fun p => (b.toNat - 128 + 128 * p.1, p.2)

def read (b : Bytes) : Option (Nat × Bytes) := readFrom 10 b

end Custody.Wire.Varint
