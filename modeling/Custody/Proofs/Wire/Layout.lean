import Custody.Proofs.Wire.Form

/-!
# Reading back a message

Fields are read one after another, so what a layout makes of a text follows from one lemma for each
kind of field: after the field has been read, the value it holds is in the record and the reader
goes on behind it.
-/

namespace Custody.Wire

/-- A negative number survives the way through 64 bits, since the low 32 of them are its own. -/
theorem int32_of_extended (x : Int32) :
    (UInt32.ofNat x.toInt64.toUInt64.toNat).toInt32 = x := by
  apply Int32.toBitVec_inj.1
  apply BitVec.eq_of_getLsbD_eq
  intro i hi
  have hlow : (x.toBitVec.signExtend 64).toNat.testBit i = x.toBitVec.getLsbD i := by
    rw [← BitVec.getLsbD, BitVec.getLsbD_signExtend]
    simp [hi, show i < 64 by omega]
  have hword : (UInt32.ofNat x.toInt64.toUInt64.toNat).toInt32.toBitVec =
      BitVec.ofNat 32 (x.toBitVec.signExtend 64).toNat := rfl
  rw [hword, BitVec.getLsbD_ofNat, hlow]
  simp [hi]

namespace Layout

/-- Reading `b` from the record `a` on ends in `r`, whatever the fuel, as long as it covers `b`. -/
def Merges (l : Layout α) (depth keep : Nat) (a : α) (b : Bytes) (r : α × Bytes) : Prop :=
  ∀ fuel, b.length ≤ fuel → l.mergeUntil depth keep fuel a b = .ok r

variable {α β : Type} {l : Layout α} {depth keep tag : Nat} {name : String} {a m : α}
  {rest : Bytes} {r : α × Bytes}

theorem Merges.done {b : Bytes} (hlength : b.length ≤ keep) : l.Merges depth keep a b (a, b) := by
  intro fuel _
  cases fuel with
  | zero => rfl
  | succ fuel => rw [mergeUntil, if_pos hlength]

theorem Merges.step {key : Key} {k b c : Bytes} {a' : α} (hkey : key.Form k)
    (hfield : l.mergeField depth key a b = .ok (a', c)) (hshort : c.length ≤ b.length)
    (hkeep : keep ≤ c.length) (hrest : l.Merges depth keep a' c r) :
    l.Merges depth keep a (k ++ b) r := by
  intro fuel hfuel
  have hpos : 0 < k.length := List.length_pos_iff.2 hkey.ne_nil
  rw [List.length_append] at hfuel
  obtain ⟨fuel, rfl⟩ : ∃ n, fuel = n + 1 := ⟨fuel - 1, by omega⟩
  rw [mergeUntil, if_neg (by rw [List.length_append]; omega), hkey.read]
  simp only [lift_ok, bind, Except.bind, hfield]
  exact hrest fuel (by omega)

/-- A field of the layout is read as it says, if its key announces it. -/
theorem mergeField_of_find {f : Field α} {b : Bytes}
    (hfind : l.fields.find? (fun g => g.tag == f.tag) = some f)
    (hmerge : f.merge depth a b = .ok r) :
    l.mergeField depth ⟨f.tag, f.kind⟩ a b = .ok r := by
  simp only [mergeField, hfind, hmerge]
  rfl

/-- A field that stands where its key announces it. -/
theorem Merges.keyed {f : Field α} {content : Bytes} {a' : α}
    (hfind : l.fields.find? (fun g => g.tag == f.tag) = some f) (hpos : 0 < f.tag)
    (htag : f.tag < 2 ^ 29) (hmerge : f.merge depth a (content ++ rest) = .ok (a', rest))
    (hkeep : keep ≤ rest.length) (hrest : l.Merges depth keep a' rest r) :
    l.Merges depth keep a (keyed f.tag f.kind content ++ rest) r := by
  have hkey : (Key.mk f.tag f.kind).Form (Key.mk f.tag f.kind).write := Key.form_write hpos htag
  rw [Wire.keyed, List.append_assoc]
  exact Merges.step hkey (mergeField_of_find hfind hmerge) (by simp) hkeep hrest

/-- A field that is left out when its value is the default, which the record has already. -/
theorem Merges.unlessBlank {f : Field α} {content : Bytes} {a' : α} {blank : Prop} [Decidable blank]
    (hfind : l.fields.find? (fun g => g.tag == f.tag) = some f) (hpos : 0 < f.tag)
    (htag : f.tag < 2 ^ 29)
    (hwrite : f.write m = if blank then [] else Wire.keyed f.tag f.kind content)
    (hmerge : f.merge depth a (content ++ rest) = .ok (a', rest)) (hblank : blank → a' = a)
    (hkeep : keep ≤ rest.length) (hrest : l.Merges depth keep a' rest r) :
    l.Merges depth keep a (f.write m ++ rest) r := by
  rw [hwrite]
  by_cases h : blank
  · rw [hblank h] at hrest
    rw [if_pos h, List.nil_append]
    exact hrest
  · rw [if_neg h]
    exact Merges.keyed hfind hpos htag hmerge hkeep hrest

/-! ## Fields of each kind -/

section Kinds

variable {content : Bytes}

theorem merge_text {get : α → String} {set : α → String → α} {s : String}
    (h : Delimited (Bytes.ofString s) content) (depth : Nat) (a : α) (rest : Bytes) :
    (Field.text tag name get set).merge depth a (content ++ rest) = .ok (set a s, rest) := by
  simp only [Field.text, readText_of_form h, Except.map]

theorem merge_bytes {get : α → Bytes} {set : α → Bytes → α} {b : Bytes} (h : Delimited b content)
    (depth : Nat) (a : α) (rest : Bytes) :
    (Field.bytes tag name get set).merge depth a (content ++ rest) = .ok (set a b, rest) := by
  simp only [Field.bytes, h.read, lift_ok, Except.map]

theorem merge_uint64 {get : α → UInt64} {set : α → UInt64 → α} {n : Nat}
    (h : Varint.Form n content) (depth : Nat) (a : α) (rest : Bytes) :
    (Field.uint64 tag name get set).merge depth a (content ++ rest) =
      .ok (set a (UInt64.ofNat n), rest) := by
  simp only [Field.uint64, readNumber_of_form h, Except.map]

theorem merge_int32 {get : α → Int32} {set : α → Int32 → α} {n : Nat}
    (h : Varint.Form n content) (depth : Nat) (a : α) (rest : Bytes) :
    (Field.int32 tag name get set).merge depth a (content ++ rest) =
      .ok (set a (UInt32.ofNat n).toInt32, rest) := by
  simp only [Field.int32, readNumber_of_form h, Except.map]

theorem merge_texts {get : α → List String} {set : α → List String → α} {s : String}
    (h : Delimited (Bytes.ofString s) content) (depth : Nat) (a : α) (rest : Bytes) :
    (Field.texts tag name get set).merge depth a (content ++ rest) =
      .ok (set a (get a ++ [s]), rest) := by
  simp only [Field.texts, readText_of_form h, Except.map]

/-- The fields of a nested message are read up to where its length says it ends. -/
theorem merge_message {inner : Layout β} {get : α → Option β} {set : α → β → α} {x : β}
    {b : Bytes} (h : Delimited b content) (hnone : get a = none)
    (hinner : inner.Merges depth rest.length inner.blank (b ++ rest) (x, rest)) :
    (Field.message tag name inner get set).merge (depth + 1) a (content ++ rest) =
      .ok (set a x, rest) := by
  obtain ⟨length, hlength, rfl⟩ := h
  have hread := hinner (b ++ rest).length (Nat.le_refl _)
  simp only [Field.message, List.append_assoc, bind, Except.bind, readNumber_of_form hlength]
  rw [if_neg (by simp), hnone]
  rw [List.length_append] at hread ⊢
  simp only [Nat.add_sub_cancel_left, Option.getD_none, hread, if_true]

end Kinds

/-! ## Fields as they are written -/

theorem Merges.text {get : α → String} {set : α → String → α}
    (hfind : l.fields.find? (fun f => f.tag == tag) = some (Field.text tag name get set))
    (hpos : 0 < tag) (htag : tag < 2 ^ 29) (hshort : (Bytes.ofString (get m)).length < UInt64.size)
    (hblank : get m = "" → set a "" = a) (hkeep : keep ≤ rest.length)
    (hrest : l.Merges depth keep (set a (get m)) rest r) :
    l.Merges depth keep a ((Field.text tag name get set).write m ++ rest) r := by
  have hmerge : (Field.text tag name get set).merge depth a
      (writeDelimited (Bytes.ofString (get m)) ++ rest) = .ok (set a (get m), rest) :=
    merge_text (delimited_write hshort) depth a rest
  have hwrite : (Field.text tag name get set).write m = if get m = "" then []
      else Wire.keyed tag .delimited (writeDelimited (Bytes.ofString (get m))) := rfl
  apply Merges.unlessBlank hfind hpos htag hwrite hmerge _ hkeep hrest
  intro hempty
  rw [hempty]
  exact hblank hempty

theorem Merges.uint64 {get : α → UInt64} {set : α → UInt64 → α}
    (hfind : l.fields.find? (fun f => f.tag == tag) = some (Field.uint64 tag name get set))
    (hpos : 0 < tag) (htag : tag < 2 ^ 29) (hblank : get m = 0 → set a 0 = a)
    (hkeep : keep ≤ rest.length) (hrest : l.Merges depth keep (set a (get m)) rest r) :
    l.Merges depth keep a ((Field.uint64 tag name get set).write m ++ rest) r := by
  have hmerge : (Field.uint64 tag name get set).merge depth a
      (Varint.write (get m).toNat ++ rest) = .ok (set a (get m), rest) := by
    rw [merge_uint64 (Varint.form_write (get m).toNat_lt), UInt64.ofNat_toNat]
  have hwrite : (Field.uint64 tag name get set).write m = if get m = 0 then []
      else Wire.keyed tag .varint (Varint.write (get m).toNat) := rfl
  apply Merges.unlessBlank hfind hpos htag hwrite hmerge _ hkeep hrest
  intro hzero
  rw [hzero]
  exact hblank hzero

theorem Merges.int32 {get : α → Int32} {set : α → Int32 → α}
    (hfind : l.fields.find? (fun f => f.tag == tag) = some (Field.int32 tag name get set))
    (hpos : 0 < tag) (htag : tag < 2 ^ 29) (hblank : get m = 0 → set a 0 = a)
    (hkeep : keep ≤ rest.length) (hrest : l.Merges depth keep (set a (get m)) rest r) :
    l.Merges depth keep a ((Field.int32 tag name get set).write m ++ rest) r := by
  have hmerge : (Field.int32 tag name get set).merge depth a
      (Varint.write (get m).toInt64.toUInt64.toNat ++ rest) = .ok (set a (get m), rest) := by
    rw [merge_int32 (Varint.form_write (get m).toInt64.toUInt64.toNat_lt), int32_of_extended]
  have hwrite : (Field.int32 tag name get set).write m = if get m = 0 then []
      else Wire.keyed tag .varint (Varint.write (get m).toInt64.toUInt64.toNat) := rfl
  apply Merges.unlessBlank hfind hpos htag hwrite hmerge _ hkeep hrest
  intro hzero
  rw [hzero]
  exact hblank hzero

theorem Merges.message {inner : Layout β} {get : α → Option β} {set : α → β → α} {x : β}
    (hfind : l.fields.find? (fun f => f.tag == tag) =
      some (Field.message tag name inner get set))
    (hpos : 0 < tag) (htag : tag < 2 ^ 29) (hsome : get m = some x) (hnone : get a = none)
    (hshort : (inner.write x).length < UInt64.size)
    (hinner : inner.Merges depth rest.length inner.blank (inner.write x ++ rest) (x, rest))
    (hkeep : keep ≤ rest.length) (hrest : l.Merges (depth + 1) keep (set a x) rest r) :
    l.Merges (depth + 1) keep a ((Field.message tag name inner get set).write m ++ rest) r := by
  have hmerge : (Field.message tag name inner get set).merge (depth + 1) a
      (writeDelimited (inner.write x) ++ rest) = .ok (set a x, rest) :=
    merge_message (delimited_write hshort) hnone hinner
  simpa only [Field.message, hsome] using Merges.keyed hfind hpos htag hmerge hkeep hrest

/-- A message is empty only if every field is left out. -/
theorem write_ne_nil {f : Field α} (hf : f ∈ l.fields) (hwrite : f.write a ≠ []) :
    l.write a ≠ [] := by
  intro h
  exact hwrite (List.flatMap_eq_nil_iff.1 h f hf)

theorem read_eq_ok {b : Bytes} (h : l.Merges maxDepth 0 l.blank b (a, [])) :
    l.read b = .ok a := by
  rw [read, h b.length (Nat.le_refl _)]
  rfl

end Layout

end Custody.Wire
