import Custody.Bech32.Lemmas

/-!
# One written form

No other symbols read as the same bytes (`bytesOfSymbols?_eq_some`), and no other checksum is
recognised (`variant?_append_eq_some`).
-/

namespace Custody.Bech32

/-! ## Regrouping -/

theorem bits_symbol_inj {s t : Symbol} : bits 5 s.toNat = bits 5 t.toNat ↔ s = t := by
  constructor
  · intro h
    have hvalue := congrArg ofBits h
    rw [ofBits_bits, ofBits_bits, Nat.mod_eq_of_lt s.isLt, Nat.mod_eq_of_lt t.isLt] at hvalue
    exact BitVec.eq_of_toNat_eq hvalue
  · rintro rfl
    rfl

theorem length_flatMap_bits (width : Nat) {α : Type} (f : α → Nat) (xs : List α) :
    (xs.flatMap fun x => bits width (f x)).length = width * xs.length := by
  induction xs with
  | nil => rfl
  | cons x xs ih =>
      rw [List.flatMap_cons, List.length_append, length_bits, ih, List.length_cons,
        Nat.mul_add_one, Nat.add_comm]

theorem flatMap_bits_inj {data other : List Symbol}
    (h : (data.flatMap fun s => bits 5 s.toNat) = other.flatMap fun s => bits 5 s.toNat) :
    data = other := by
  induction data generalizing other with
  | nil =>
      have hlength := length_flatMap_bits 5 BitVec.toNat other
      rw [← h] at hlength
      exact (List.eq_nil_of_length_eq_zero (by simpa using hlength.symm)).symm
  | cons s data ih =>
      cases other with
      | nil =>
          have hlength := length_flatMap_bits 5 BitVec.toNat (s :: data)
          rw [h] at hlength
          simp at hlength
      | cons t other =>
          rw [List.flatMap_cons, List.flatMap_cons] at h
          have hsplit := List.append_inj h (by rw [length_bits, length_bits])
          rw [bits_symbol_inj.1 hsplit.1, ih hsplit.2]

theorem bits_octet {bs : List Bool} (h : bs.length = 8) :
    bits 8 (UInt8.ofNat (ofBits bs)).toNat = bs := by
  have low := ofBits_lt bs
  rw [h] at low
  rw [UInt8.toNat_ofNat', Nat.mod_eq_of_lt low, ← h, bits_ofBits]

/-- What is left over of the bits after whole bytes are zeros, fewer than a symbol has. -/
theorem octetBits?_eq_some {bs : List Bool} {raw : Bytes} (h : octetBits? bs = some raw) :
    ∃ pad < 5, bs = raw.flatMap (fun x => bits 8 x.toNat) ++ List.replicate pad false := by
  fun_induction octetBits? bs generalizing raw with
  | case1 a b c d e f g i rest ih =>
      obtain ⟨more, hmore, rfl⟩ := Option.map_eq_some_iff.1 h
      obtain ⟨pad, small, hrest⟩ := ih hmore
      refine ⟨pad, small, ?_⟩
      rw [List.flatMap_cons, bits_octet (by rfl), List.append_assoc, ← hrest]
      rfl
  | case2 short _ hshort =>
      cases h
      refine ⟨short.length, hshort.1, ?_⟩
      rw [List.flatMap_nil, List.nil_append, List.eq_replicate_iff]
      refine ⟨rfl, fun b hb => ?_⟩
      cases b with
      | false => rfl
      | true => exact absurd hb hshort.2
  | case3 => cases h

/-- Symbols that read as bytes are the symbols of these bytes. -/
theorem bytesOfSymbols?_eq_some {data : List Symbol} {raw : Bytes} :
    bytesOfSymbols? data = some raw ↔ data = symbolsOfBytes raw := by
  constructor
  · intro h
    obtain ⟨pad, small, hbits⟩ := octetBits?_eq_some h
    obtain ⟨pad', small', hgroups⟩ := flatMap_groupBits (raw.flatMap fun x => bits 8 x.toNat)
    -- Both are filled up to whole symbols, so they are filled up by the same number of zeros.
    have hlength := congrArg List.length hbits
    have hlength' := congrArg List.length hgroups
    rw [List.length_append, List.length_replicate, length_flatMap_bits, length_flatMap_bits]
      at hlength hlength'
    have hpad : pad = pad' := by omega
    apply flatMap_bits_inj
    rw [hbits, hpad, symbolsOfBytes, hgroups]
  · rintro rfl
    exact bytesOfSymbols?_symbolsOfBytes raw

theorem symbolsOfBytes_inj {raw other : Bytes} :
    symbolsOfBytes raw = symbolsOfBytes other ↔ raw = other := by
  constructor
  · intro h
    have hread := bytesOfSymbols?_symbolsOfBytes raw
    rw [h, bytesOfSymbols?_symbolsOfBytes] at hread
    exact (Option.some.inj hread).symm
  · rintro rfl
    rfl

/-! ## The checksum -/

theorem length_checksum (hrp : String) (data : List Symbol) (v : Variant) :
    (checksum hrp data v).length = 6 := rfl

/-- Any six symbols are the digits of a remainder. -/
theorem exists_digits {symbols : List Symbol} (h : symbols.length = 6) :
    ∃ r, digits r = symbols := by
  obtain ⟨a, b, c, d, e, f, rfl⟩ : ∃ a b c d e f, symbols = [a, b, c, d, e, f] := by
    match symbols, h with
    | [a, b, c, d, e, f], _ => exact ⟨a, b, c, d, e, f, rfl⟩
  have ha := a.isLt
  have hb := b.isLt
  have hc := c.isLt
  have hd := d.isLt
  have he := e.isLt
  have hf := f.isLt
  refine ⟨BitVec.ofNat 30 (((((a.toNat * 32 + b.toNat) * 32 + c.toNat) * 32 + d.toNat) * 32 +
    e.toNat) * 32 + f.toNat), ?_⟩
  simp only [digits, List.cons.injEq, and_true, ← BitVec.toNat_inj, BitVec.extractLsb'_toNat,
    BitVec.toNat_ofNat, Nat.shiftRight_eq_div_pow]
  omega

theorem digits_foldl_step {symbols : List Symbol} (h : symbols.length = 6) :
    digits (symbols.foldl step 0) = symbols := by
  obtain ⟨r, rfl⟩ := exists_digits h
  rw [foldl_step_digits]

theorem variant?_eq_some {hrp : String} {data : List Symbol} {v : Variant} :
    variant? hrp data = some v ↔ remainder (expand hrp ++ data) = v.constant := by
  have hdiffer : Variant.bech32m.constant ≠ Variant.bech32.constant := by decide
  rw [variant?]
  generalize remainder (expand hrp ++ data) = r
  cases v with
  | bech32 => grind
  | bech32m => grind

/-- Data and a checksum are recognised as a variant only if the checksum is the one of that
variant. -/
theorem variant?_append_eq_some {hrp : String} {data sum : List Symbol} {v : Variant}
    (h : sum.length = 6) :
    variant? hrp (data ++ sum) = some v ↔ sum = checksum hrp data v := by
  constructor
  · intro hvariant
    have hclosed := variant?_eq_some.1 hvariant
    rw [← List.append_assoc, remainder, List.foldl_append, foldl_step_eq, h] at hclosed
    have hsum : sum.foldl step 0 =
        remainder (expand hrp ++ data ++ List.replicate 6 0) ^^^ v.constant := by
      rw [remainder, List.foldl_append, ← hclosed, ← BitVec.xor_assoc, BitVec.xor_self,
        BitVec.zero_xor]
    rw [checksum, ← hsum, digits_foldl_step h]
  · rintro rfl
    exact variant?_checksum hrp data v

end Custody.Bech32
