import Mathlib.Algebra.GroupWithZero.Nat
import Custody.Bech32.Checksum

/-!
# Laws of the encoding

Bytes come back from their symbols (`bytesOfSymbols?_symbolsOfBytes`), and data with its checksum
is recognised (`variant?_checksum`): the remainder is linear in exclusive or, and taking in the
digits of a remainder yields that remainder.
-/

namespace Custody.Bech32

/-! ## Regrouping -/

@[simp] theorem length_bits (width n : Nat) : (bits width n).length = width := by
  induction width with
  | zero => rfl
  | succ width ih => simp [bits, ih]

theorem bits_congr {m n : Nat} (width : Nat) (h : ∀ i < width, m.testBit i = n.testBit i) :
    bits width m = bits width n := by
  induction width with
  | zero => rfl
  | succ width ih =>
    rw [bits, bits, h width (by omega), ih fun i hi => h i (by omega)]

theorem foldl_bits (bs : List Bool) (start : Nat) :
    bs.foldl (fun n b => 2 * n + b.toNat) start = start * 2 ^ bs.length + ofBits bs := by
  induction bs generalizing start with
  | nil => simp [ofBits]
  | cons b bs ih =>
    have tail : ofBits (b :: bs) = b.toNat * 2 ^ bs.length + ofBits bs := by
      rw [ofBits, List.foldl_cons, ih]
      simp
    rw [List.foldl_cons, ih, tail, List.length_cons, Nat.pow_succ, Nat.add_mul, Nat.add_assoc,
      Nat.mul_comm 2 start, Nat.mul_assoc, Nat.mul_comm 2]

theorem ofBits_cons (b : Bool) (bs : List Bool) :
    ofBits (b :: bs) = b.toNat * 2 ^ bs.length + ofBits bs := by
  rw [ofBits, List.foldl_cons, foldl_bits]
  simp

theorem ofBits_lt (bs : List Bool) : ofBits bs < 2 ^ bs.length := by
  induction bs with
  | nil => simp [ofBits]
  | cons b bs ih =>
    rw [ofBits_cons, List.length_cons, Nat.pow_succ]
    cases b <;> simp <;> omega

theorem bits_ofBits (bs : List Bool) : bits bs.length (ofBits bs) = bs := by
  induction bs with
  | nil => rfl
  | cons b bs ih =>
    have low := ofBits_lt bs
    rw [List.length_cons, bits, ofBits_cons]
    congr 1
    · rw [Nat.testBit_eq_decide_div_mod_eq, Nat.add_comm,
        Nat.add_mul_div_right _ _ (Nat.two_pow_pos _),
        Nat.div_eq_of_lt low]
      cases b <;> simp
    · rw [bits_congr _ fun i hi => ?_, ih]
      rw [Nat.mul_comm, Nat.testBit_two_pow_mul_add _ low, if_pos hi]

theorem ofBits_bits (width n : Nat) : ofBits (bits width n) = n % 2 ^ width := by
  induction width with
  | zero => simp [bits, ofBits, Nat.mod_one]
  | succ width ih =>
    rw [bits, ofBits_cons, ih, length_bits, Nat.mod_pow_succ, Nat.testBit_eq_decide_div_mod_eq]
    rcases Nat.mod_two_eq_zero_or_one (n / 2 ^ width) with h | h <;> simp [h]
    omega

/-- The bits of a symbol made of five bits. -/
theorem bits_symbol {bs : List Bool} (h : bs.length = 5) :
    bits 5 (BitVec.ofNat 5 (ofBits bs)).toNat = bs := by
  have low := ofBits_lt bs
  rw [h] at low
  rw [BitVec.toNat_ofNat, Nat.mod_eq_of_lt low, ← h, bits_ofBits]

/-- Regrouping to symbols only adds zeros at the end. -/
theorem flatMap_groupBits (bs : List Bool) :
    ∃ pad < 5,
      (groupBits bs).flatMap (fun s => bits 5 s.toNat) = bs ++ List.replicate pad false := by
  fun_induction groupBits bs with
  | case1 => exact ⟨0, by omega, rfl⟩
  | case2 a b c d e rest ih =>
    obtain ⟨pad, small, eq⟩ := ih
    refine ⟨pad, small, ?_⟩
    rw [List.flatMap_cons, eq, bits_symbol (by rfl)]
    rfl
  | case3 short hnil hfive =>
    have len : short.length < 5 := by
      rcases short with _ | ⟨a, _ | ⟨b, _ | ⟨c, _ | ⟨d, _ | ⟨e, rest⟩⟩⟩⟩⟩
      case cons.cons.cons.cons.cons => exact (hfive a b c d e rest rfl).elim
      all_goals simp
    have pos : 0 < short.length := List.length_pos_iff.2 (hnil ·)
    refine ⟨5 - short.length, by omega, ?_⟩
    rw [List.flatMap_cons, List.flatMap_nil, List.append_nil,
      bits_symbol (by simp; omega)]

theorem octetBits?_append (raw : Bytes) {pad : Nat} (h : pad < 5) :
    octetBits? (raw.flatMap (fun x => bits 8 x.toNat) ++ List.replicate pad false) = some raw := by
  induction raw with
  | nil =>
    match pad, h with
    | 0, _ | 1, _ | 2, _ | 3, _ | 4, _ => rfl
  | cons x raw ih =>
    have byte : UInt8.ofNat (ofBits (bits 8 x.toNat)) = x := by
      rw [ofBits_bits, Nat.mod_eq_of_lt x.toNat_lt, UInt8.ofNat_toNat]
    simp only [bits] at byte
    simp only [List.flatMap_cons, bits, List.cons_append, List.nil_append, octetBits?]
    simp only [bits] at ih
    rw [ih, byte]
    rfl

/-- Bytes come back from their symbols. -/
theorem bytesOfSymbols?_symbolsOfBytes (raw : Bytes) :
    bytesOfSymbols? (symbolsOfBytes raw) = some raw := by
  obtain ⟨pad, small, eq⟩ := flatMap_groupBits (raw.flatMap fun x => bits 8 x.toNat)
  rw [bytesOfSymbols?, symbolsOfBytes, eq, octetBits?_append raw small]

/-! ## The remainder -/

private theorem xor_none {width : Nat} (r : BitVec width) : r ^^^ 0 = r := BitVec.xor_zero

private theorem none_xor {width : Nat} (r : BitVec width) : 0 ^^^ r = r := BitVec.zero_xor

theorem tap_xor (r s : Remainder) (bit : Nat) (g : Remainder) :
    tap (r ^^^ s) bit g = tap r bit g ^^^ tap s bit g := by
  simp only [tap, BitVec.getLsbD_xor]
  cases r.getLsbD bit <;> cases s.getLsbD bit <;> simp

theorem feedback_xor (r s : Remainder) : feedback (r ^^^ s) = feedback r ^^^ feedback s := by
  simp only [feedback, tap_xor]
  ac_rfl

theorem step_xor (r s : Remainder) (a b : Symbol) :
    step (r ^^^ s) (a ^^^ b) = step r a ^^^ step s b := by
  simp only [step, feedback_xor, BitVec.shiftLeft_xor_distrib, BitVec.setWidth_xor]
  ac_rfl

/-- Nothing is fed back while the top five bits are zero. -/
theorem feedback_shift (r : Remainder) {n : Nat} (h : 5 ≤ n) : feedback (r >>> n) = 0 := by
  have untapped (bit : Nat) (g : Remainder) (hb : 25 ≤ bit) : tap (r >>> n) bit g = 0 := by
    rw [tap, BitVec.getLsbD_ushiftRight, BitVec.getLsbD_of_ge _ _ (by omega)]
    rfl
  rw [feedback, untapped 25 _ (by omega), untapped 26 _ (by omega), untapped 27 _ (by omega),
    untapped 28 _ (by omega), untapped 29 _ (by omega)]
  rfl

/-- Taking in the next five bits of a number whose higher bits have been taken in. -/
theorem step_extract (r : Remainder) (n : Nat) :
    step (r >>> (n + 5)) (r.extractLsb' n 5) = r >>> n := by
  rw [step, feedback_shift r (by omega), xor_none]
  apply BitVec.eq_of_getLsbD_eq
  intro i hi
  simp only [BitVec.getLsbD_xor, BitVec.getLsbD_shiftLeft, BitVec.getLsbD_ushiftRight,
    BitVec.getLsbD_setWidth, BitVec.getLsbD_extractLsb']
  by_cases h : i < 5
  · simp [h, hi]
  · simp [h, hi, show n + 5 + (i - 5) = n + i by omega]

theorem foldl_step_digits (r : Remainder) : (digits r).foldl step 0 = r := by
  have start : (0 : Remainder) = r >>> 30 := by
    apply BitVec.eq_of_getLsbD_eq
    intro i hi
    rw [BitVec.getLsbD_ushiftRight, BitVec.getLsbD_of_ge _ _ (Nat.le_add_right 30 i)]
    exact BitVec.getLsbD_zero
  simp only [digits, List.foldl_cons, List.foldl_nil]
  rw [start, step_extract r 25, step_extract r 20, step_extract r 15, step_extract r 10,
    step_extract r 5, step_extract r 0, BitVec.ushiftRight_zero]

theorem foldl_step_zeros_xor (n : Nat) (r s : Remainder) :
    (List.replicate n 0).foldl step (r ^^^ s) =
      (List.replicate n 0).foldl step r ^^^ (List.replicate n 0).foldl step s := by
  induction n generalizing r s with
  | zero => rfl
  | succ n ih =>
    have split := step_xor r s 0 0
    rw [xor_none] at split
    rw [List.replicate_succ, List.foldl_cons, List.foldl_cons, List.foldl_cons, split, ih]

/-- What symbols add to the remainder does not depend on what went before them. -/
theorem foldl_step_eq (r : Remainder) (symbols : List Symbol) :
    symbols.foldl step r =
      (List.replicate symbols.length 0).foldl step r ^^^ symbols.foldl step 0 := by
  induction symbols generalizing r with
  | nil => exact (xor_none r).symm
  | cons s symbols ih =>
    have split := step_xor r 0 0 s
    rw [xor_none, none_xor] at split
    rw [List.foldl_cons, ih, split, foldl_step_zeros_xor, List.length_cons, List.replicate_succ,
      List.foldl_cons, List.foldl_cons, ih (step 0 s), BitVec.xor_assoc]

/-- The checksum is recognised as the one of its variant. -/
theorem variant?_checksum (hrp : String) (data : List Symbol) (v : Variant) :
    variant? hrp (data ++ checksum hrp data v) = some v := by
  have closed : remainder (expand hrp ++ (data ++ checksum hrp data v)) = v.constant := by
    generalize hs : expand hrp ++ data = s
    rw [← List.append_assoc, checksum, hs, remainder, List.foldl_append, foldl_step_eq,
      foldl_step_digits, remainder, List.foldl_append]
    simp only [digits, List.length_cons, List.length_nil]
    rw [← BitVec.xor_assoc, BitVec.xor_self, BitVec.zero_xor]
  rw [variant?, closed]
  cases v <;> decide

end Custody.Bech32
