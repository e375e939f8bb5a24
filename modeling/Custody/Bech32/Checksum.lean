import Custody.Bech32.Symbol

/-!
# The checksum

A cyclic code over symbols: a 30-bit remainder is updated by each symbol, linearly in exclusive
or. Six symbols after the data bring the remainder to the constant of the variant.
-/

namespace Custody.Bech32

abbrev Remainder := BitVec 30

inductive Variant where
  | bech32
  | bech32m
  deriving DecidableEq, Repr

def Variant.constant : Variant → Remainder
  | .bech32 => 1
  | .bech32m => 0x2bc830a3

/-- What one of the bits that leave the remainder feeds back into it. -/
def tap (r : Remainder) (bit : Nat) (generator : Remainder) : Remainder :=
  if r.getLsbD bit then generator else 0

def feedback (r : Remainder) : Remainder :=
  tap r 25 0x3b6a57b2 ^^^ tap r 26 0x26508e6d ^^^ tap r 27 0x1ea119fa ^^^ tap r 28 0x3d4233dd ^^^
    tap r 29 0x2a1462b3

def step (r : Remainder) (s : Symbol) : Remainder := (r <<< 5) ^^^ s.setWidth 30 ^^^ feedback r

def remainder (symbols : List Symbol) : Remainder := symbols.foldl step 1

/-- The high bits of all bytes, a zero, and the low bits of all bytes. -/
def expand (hrp : String) : List Symbol :=
  (Bytes.ofString hrp).map (fun x => BitVec.ofNat 5 (x.toNat / 32)) ++
    0 :: (Bytes.ofString hrp).map (fun x => BitVec.ofNat 5 (x.toNat % 32))

/-- The six symbols of a remainder, highest first. -/
def digits (r : Remainder) : List Symbol :=
  [r.extractLsb' 25 5, r.extractLsb' 20 5, r.extractLsb' 15 5, r.extractLsb' 10 5,
    r.extractLsb' 5 5, r.extractLsb' 0 5]

def checksum (hrp : String) (data : List Symbol) (variant : Variant) : List Symbol :=
  digits (remainder (expand hrp ++ data ++ List.replicate 6 0) ^^^ variant.constant)

/-- The variant whose checksum ends `data`. -/
def variant? (hrp : String) (data : List Symbol) : Option Variant :=
  let r := remainder (expand hrp ++ data)
  if r = Variant.bech32.constant then some .bech32
  else if r = Variant.bech32m.constant then some .bech32m
  else none

end Custody.Bech32
