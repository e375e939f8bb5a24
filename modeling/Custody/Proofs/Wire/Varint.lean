import Mathlib.Algebra.GroupWithZero.Nat
import Custody.Wire.Varint

/-!
# Forms of variable-length integers

A number below 2 ^ 64 has a shortest form, which is the one that is written, and longer ones with
zeros at their end. All of them are read, up to ten bytes, whatever follows.
-/

namespace Custody.Wire.Varint

/-- The bytes spell the number, seven bits in each, lowest first. -/
inductive Spells : Nat → Bytes → Prop
  | last {x : UInt8} (hlast : x < 128) : Spells x.toNat [x]
  | more {x : UInt8} {n : Nat} {b : Bytes} (hmore : ¬ x < 128) (hrest : Spells n b) :
      Spells (x.toNat - 128 + 128 * n) (x :: b)

/-- The bytes spell the number within the bounds of a reader. -/
structure Form (n : Nat) (b : Bytes) : Prop where
  spells : Spells n b
  length : b.length ≤ 10
  bound : n < UInt64.size

theorem Spells.ne_nil {n : Nat} {b : Bytes} (h : Spells n b) : b ≠ [] := by
  cases h <;> simp

/-! ## Reading a form -/

theorem readFrom_of_spells {n : Nat} {b : Bytes} (h : Spells n b) (left : Nat) (rest : Bytes)
    (hlength : b.length ≤ left + 1) (hbound : n < 2 ^ (7 * left + 1)) :
    readFrom (left + 1) (b ++ rest) = some (n, rest) := by
  induction h generalizing left with
  | @last x hlast =>
      have hfits : ¬ (left = 0 ∧ 2 ≤ x) := by
        rintro ⟨rfl, hlarge⟩
        have htwo : 2 ≤ x.toNat := UInt8.le_iff_toNat_le.1 hlarge
        have hsmall : x.toNat < 2 := hbound
        omega
      rw [List.singleton_append, readFrom, if_pos hlast, if_neg hfits]
  | @more x n b hmore hrest ih =>
      have hpos : 0 < b.length := List.length_pos_iff.2 hrest.ne_nil
      rw [List.length_cons] at hlength
      obtain ⟨left, rfl⟩ : ∃ k, left = k + 1 := ⟨left - 1, by omega⟩
      have hn : n < 2 ^ (7 * left + 1) := by
        have hpow : 2 ^ (7 * (left + 1) + 1) = 128 * 2 ^ (7 * left + 1) := by
          rw [show 7 * (left + 1) + 1 = 7 + (7 * left + 1) by omega, Nat.pow_add]
        omega
      rw [List.cons_append, readFrom, if_neg hmore, ih left (by omega) hn]
      rfl

theorem Form.read {n : Nat} {b : Bytes} (h : Form n b) (rest : Bytes) :
    Varint.read (b ++ rest) = some (n, rest) :=
  readFrom_of_spells h.spells 9 rest h.length h.bound

/-! ## The form that is written -/

theorem spells_write (n : Nat) : Spells n (write n) := by
  induction n using Nat.strongRecOn with
  | ind n ih =>
      rw [write]
      split
      · rename_i hsmall
        have hbyte : (UInt8.ofNat n).toNat = n := by
          rw [UInt8.toNat_ofNat']
          omega
        have hlast : UInt8.ofNat n < 128 := by
          rw [UInt8.lt_iff_toNat_lt, hbyte]
          exact hsmall
        simpa only [hbyte] using Spells.last hlast
      · rename_i hlarge
        have hbyte : (UInt8.ofNat (n % 128 + 128)).toNat = n % 128 + 128 := by
          rw [UInt8.toNat_ofNat']
          omega
        have hmore : ¬ UInt8.ofNat (n % 128 + 128) < 128 := by
          rw [UInt8.lt_iff_toNat_lt, hbyte]
          exact Nat.not_lt.2 (Nat.le_add_left 128 _)
        have hspells := Spells.more hmore (ih (n / 128) (by omega))
        have hvalue : n % 128 + 128 - 128 + 128 * (n / 128) = n := by omega
        rwa [hbyte, hvalue] at hspells

theorem length_write_le {left n : Nat} (hn : n < 2 ^ (7 * left + 7)) :
    (write n).length ≤ left + 1 := by
  induction left generalizing n with
  | zero =>
      have hsmall : n < 128 := hn
      rw [write, if_pos hsmall]
      simp
  | succ left ih =>
      rw [write]
      split
      · simp
      · have hdiv : n / 128 < 2 ^ (7 * left + 7) := by
          apply Nat.div_lt_of_lt_mul
          calc
            n < 2 ^ (7 * (left + 1) + 7) := hn
            _ = 128 * 2 ^ (7 * left + 7) := by
              rw [show 7 * (left + 1) + 7 = 7 + (7 * left + 7) by omega, Nat.pow_add]
        have hrest := ih hdiv
        rw [List.length_cons]
        omega

theorem form_write {n : Nat} (h : n < UInt64.size) : Form n (write n) where
  spells := spells_write n
  length := by
    have hn : n < 2 ^ (7 * 9 + 7) := Nat.lt_trans h (by decide)
    exact length_write_le hn
  bound := h

theorem form_singleton {n : Nat} (h : n < 128) : Form n [UInt8.ofNat n] := by
  have hform : Form n (write n) := form_write (Nat.lt_trans h (by decide))
  rwa [write, if_pos h] at hform

theorem write_ne_nil (n : Nat) : write n ≠ [] := (spells_write n).ne_nil

end Custody.Wire.Varint
