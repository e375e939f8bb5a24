import Custody.Bytes

/-!
# Five-bit symbols

The alphabet of the encoding, and regrouping between bytes and symbols by way of their bits.
-/

namespace Custody.Bech32

abbrev Symbol := BitVec 5

def alphabet : List Char := "qpzry9x8gf2tvdw0s3jn54khce6mua7l".toList

def Symbol.toChar (s : Symbol) : Char := alphabet[s.toNat]?.getD 'q'

/-- The symbol of a letter or digit, in either case. -/
def Symbol.ofChar? (c : Char) : Option Symbol := (alphabet.idxOf? c.toLower).map (BitVec.ofNat 5)

/-- The low `width` bits of a number, highest first. -/
def bits : Nat → Nat → List Bool
  | 0, _ => []
  | width + 1, n => n.testBit width :: bits width n

def ofBits (bs : List Bool) : Nat := bs.foldl (fun n b => 2 * n + b.toNat) 0

/-- Groups of five bits; zeros fill the last one up. -/
def groupBits : List Bool → List Symbol
  | [] => []
  | a :: b :: c :: d :: e :: rest => BitVec.ofNat 5 (ofBits [a, b, c, d, e]) :: groupBits rest
  | short => [BitVec.ofNat 5 (ofBits (short ++ List.replicate (5 - short.length) false))]

/-- Groups of eight bits. What is left over must be less than a symbol, and zero. -/
def octetBits? : List Bool → Option Bytes
  | a :: b :: c :: d :: e :: f :: g :: h :: rest =>
    (octetBits? rest).map (UInt8.ofNat (ofBits [a, b, c, d, e, f, g, h]) :: ·)
  | short => if short.length < 5 ∧ true ∉ short then some [] else none

def symbolsOfBytes (raw : Bytes) : List Symbol := groupBits (raw.flatMap fun x => bits 8 x.toNat)

def bytesOfSymbols? (data : List Symbol) : Option Bytes :=
  octetBits? (data.flatMap fun s => bits 5 s.toNat)

end Custody.Bech32
