/-!
# Byte strings

Octet lists, their text and big-endian readings, and the lower-case hexadecimal form.
-/

namespace Custody

abbrev Bytes := List UInt8

namespace Bytes

def ofString (s : String) : Bytes := s.toByteArray.data.toList

/-- The text whose UTF-8 form these bytes are, if they are one. -/
def toString? (b : Bytes) : Option String := String.fromUTF8? ⟨b.toArray⟩

@[simp] theorem toString?_ofString (s : String) : (ofString s).toString? = some s := by
  have same : (⟨(ofString s).toArray⟩ : ByteArray) = s.toByteArray := by simp [ofString]
  rw [toString?, same, String.fromUTF8?, dif_pos s.isValidUTF8]
  rfl

theorem ofString_of_toString? {b : Bytes} {s : String} (h : b.toString? = some s) :
    ofString s = b := by
  simp only [toString?, String.fromUTF8?] at h
  split at h
  · cases h
    simp [ofString, String.fromUTF8]
  · cases h

theorem ofString_injective {s t : String} (h : ofString s = ofString t) : s = t := by
  have := congrArg toString? h
  simpa using this

/-- The last `width` base-256 digits of `n`, most significant first. -/
def bigEndian (n : Nat) : Nat → Bytes
  | 0 => []
  | width + 1 => bigEndian (n / 256) width ++ [UInt8.ofNat (n % 256)]

def ofBigEndian (b : Bytes) : Nat := b.foldl (fun n x => n * 256 + x.toNat) 0

@[simp] theorem length_bigEndian (n width : Nat) : (bigEndian n width).length = width := by
  induction width generalizing n with
  | zero => rfl
  | succ width ih => simp [bigEndian, ih]

/-- The first `n` bytes and the rest, when there are that many. -/
def split? : Nat → Bytes → Option (Bytes × Bytes)
  | 0, b => some ([], b)
  | _ + 1, [] => none
  | n + 1, x :: b => (split? n b).map fun p => (x :: p.1, p.2)

theorem split?_append (a b : Bytes) : split? a.length (a ++ b) = some (a, b) := by
  induction a with
  | nil => cases b <;> rfl
  | cons x a ih => simp [split?, ih]

/-- Two lower-case hexadecimal digits for each byte. -/
def hex (b : Bytes) : String :=
  String.ofList (b.flatMap fun x => [Nat.digitChar (x.toNat / 16), Nat.digitChar (x.toNat % 16)])

end Bytes

end Custody
