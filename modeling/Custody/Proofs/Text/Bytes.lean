import Mathlib.Algebra.GroupWithZero.Nat
import Custody.Bytes
import Custody.Coin
import Custody.Text.Decimal

/-!
# The bytes of texts

Texts in memory, texts of ASCII characters, and decimal texts: how long they are and which bytes
they are made of. Hexadecimal texts are read back as the bytes that they stand for.
-/

namespace Custody

namespace Text

/-- A text in memory. Its length is an offset into memory, so it stays below 2 ^ 63. -/
def Addressable (s : String) : Prop := s.utf8ByteSize < 2 ^ 63

instance (s : String) : Decidable (Addressable s) :=
  inferInstanceAs (Decidable (s.utf8ByteSize < 2 ^ 63))

end Text

namespace Bytes

theorem ofBigEndian_bigEndian (n width : Nat) :
    ofBigEndian (bigEndian n width) = n % 256 ^ width := by
  induction width generalizing n with
  | zero => simp [bigEndian, ofBigEndian, Nat.mod_one]
  | succ width ih =>
    have digit : n % 256 % 2 ^ 8 = n % 256 := Nat.mod_eq_of_lt (Nat.mod_lt _ (by decide))
    simp only [ofBigEndian] at ih
    simp only [bigEndian, ofBigEndian, List.foldl_append, List.foldl_cons, List.foldl_nil, ih,
      UInt8.toNat_ofNat', digit]
    rw [Nat.pow_succ, Nat.mul_comm (256 ^ width), Nat.mod_mul]
    omega

theorem ofString_eq_flatMap (s : String) :
    ofString s = s.toList.flatMap String.utf8EncodeChar := by
  rw [ofString, ← String.utf8Encode_toList, List.utf8Encode]
  simp

theorem ofString_append (s t : String) : ofString (s ++ t) = ofString s ++ ofString t := by
  simp [ofString]

@[simp] theorem length_ofString (s : String) : (ofString s).length = s.utf8ByteSize := by
  simp [ofString]

theorem length_ofString_lt {s : String} (hs : Text.Addressable s) :
    (ofString s).length < UInt64.size := by
  rw [length_ofString]
  exact Nat.lt_trans hs (by decide)

@[simp] theorem ofString_inj {s t : String} : ofString s = ofString t ↔ s = t :=
  ⟨ofString_injective, fun h => h ▸ rfl⟩

theorem utf8EncodeChar_of_ascii {c : Char} (hc : c.toNat < 128) :
    String.utf8EncodeChar c = [UInt8.ofNat c.toNat] := by
  have hsize : c.utf8Size = 1 := by
    rw [Char.utf8Size_eq_one_iff, UInt32.le_iff_toNat_le]
    exact Nat.lt_succ_iff.1 hc
  rw [String.utf8EncodeChar_eq_singleton hsize]
  rfl

/-- Each ASCII character is one byte. -/
theorem ofString_of_ascii {s : String} (hs : ∀ c ∈ s.toList, c.toNat < 128) :
    ofString s = s.toList.map fun c => UInt8.ofNat c.toNat := by
  rw [ofString_eq_flatMap]
  generalize s.toList = cs at hs
  induction cs with
  | nil => rfl
  | cons c cs ih =>
      rw [List.flatMap_cons, List.map_cons, utf8EncodeChar_of_ascii (hs c (by simp)),
        ih fun x hx => hs x (by simp [hx])]
      rfl

/-! ## Hexadecimal digits -/

/-- The value of a hexadecimal digit; letters are in lower case. -/
def hexValue? (c : Char) : Option Nat :=
  if '0' ≤ c ∧ c ≤ '9' then some (c.toNat - '0'.toNat)
  else if 'a' ≤ c ∧ c ≤ 'f' then some (c.toNat - 'a'.toNat + 10)
  else none

/-- The bytes that pairs of digits stand for, the higher digit first. -/
def ofHexDigits? : List Char → Option Bytes
  | [] => some []
  | [_] => none
  | high :: low :: rest => do
    let h ← hexValue? high
    let l ← hexValue? low
    let b ← ofHexDigits? rest
    return UInt8.ofNat (16 * h + l) :: b

def ofHex? (s : String) : Option Bytes := ofHexDigits? s.toList

theorem hexValue?_digitChar : ∀ n < 16, hexValue? (Nat.digitChar n) = some n := by
  decide

theorem ofHex?_hex (b : Bytes) : ofHex? b.hex = some b := by
  unfold ofHex? hex
  rw [String.toList_ofList]
  induction b with
  | nil => rfl
  | cons x b ih =>
      have hx : x.toNat < 256 := x.toNat_lt
      have hhigh := hexValue?_digitChar (x.toNat / 16) (by omega)
      have hlow := hexValue?_digitChar (x.toNat % 16) (by omega)
      have hbyte : 16 * (x.toNat / 16) + x.toNat % 16 = x.toNat := by omega
      simp only [List.flatMap_cons, List.cons_append, List.nil_append, ofHexDigits?, hhigh, hlow,
        ih, hbyte, Option.bind_eq_bind, Option.bind_some, UInt8.ofNat_toNat]
      rfl

end Bytes

namespace Text.Decimal

theorem toString_inj {m n : Nat} : toString m = toString n ↔ m = n := by
  constructor
  · intro h
    have hm : read (m + n + 1) (toString m) = .ok m := read_toString (by omega)
    have hn : read (m + n + 1) (toString n) = .ok n := read_toString (by omega)
    rw [h, hn] at hm
    exact (Except.ok.inj hm).symm
  · intro h
    rw [h]

theorem toString_ne_empty (n : Nat) : toString n ≠ "" := Nat.repr_ne_empty

theorem toNat_lt_of_mem_toString {n : Nat} {c : Char} (hc : c ∈ (toString n).toList) :
    c.toNat < 128 := by
  have hdigit : c.isDigit := by
    apply Nat.isDigit_of_mem_toDigits (b := 10) (by decide) (by decide) (n := n)
    simpa [Nat.toString_eq_repr] using hc
  rw [Char.isDigit, Bool.and_eq_true, decide_eq_true_eq, decide_eq_true_eq] at hdigit
  have hlast : c.toNat ≤ '9'.toNat := hdigit.2
  have hnine : '9'.toNat = 57 := rfl
  omega

/-- A number below 10 ^ k has k digits at most. -/
theorem utf8ByteSize_toString_le {k n : Nat} (hk : 0 < k) (hn : n < 10 ^ k) :
    (toString n).utf8ByteSize ≤ k := by
  rw [← Bytes.length_ofString, Bytes.ofString_of_ascii fun c => toNat_lt_of_mem_toString,
    List.length_map, Nat.toString_eq_repr, Nat.toList_repr]
  exact (Nat.length_toDigits_le_iff (by decide) hk).2 hn

theorem addressable_toString {n : Nat} (hn : n < Amount.limit) : Addressable (toString n) := by
  have hsize := utf8ByteSize_toString_le (k := 39) (n := n) (by decide)
    (Nat.lt_trans hn (by decide))
  exact Nat.lt_of_le_of_lt hsize (by decide)

end Text.Decimal

end Custody
