import Custody.Escrow.Record
import Custody.Operation
import Custody.Proofs.Text.Bytes
import Custody.Proofs.Wire.Layout

/-!
# The committed form is read back

The round trip is `Escrow.decode_encode`. From it, no two escrows share a committed form, and since
the amount is never left out, none has the empty form, which the store does not take.
-/

namespace Custody

open Text (Addressable)

theorem Amount.read_text (a : Amount) : Amount.read a.text = .ok a := by
  have hsame : Amount.ofNat? a.val = some a := dif_pos a.val_lt
  rw [Amount.read, Amount.text, Text.Decimal.read_toString a.val_lt]
  simp only [bind, Except.bind, hsame]

theorem Amount.text_ne_empty (a : Amount) : a.text ≠ "" := Text.Decimal.toString_ne_empty a.val

namespace CoinRecord

theorem length_write_lt {c : CoinRecord} (hdenom : Addressable c.denom)
    (hamount : c.amount.utf8ByteSize ≤ 39) : (layout.write c).length < UInt64.size := by
  have htext : ∀ tag s, tag < 3 → s.utf8ByteSize < 2 ^ 63 →
      (Wire.keyed tag .delimited (Wire.writeDelimited (Bytes.ofString s))).length ≤
        11 + s.utf8ByteSize := by
    intro tag s htag hs
    have hkey : (Wire.Varint.write (tag * 8 + 2)).length ≤ 0 + 1 :=
      Wire.Varint.length_write_le (by omega)
    have hlength : (Wire.Varint.write s.utf8ByteSize).length ≤ 9 + 1 :=
      Wire.Varint.length_write_le (Nat.lt_trans hs (by decide))
    simp only [Wire.keyed, Wire.Key.write, Wire.WireType.code, Wire.writeDelimited,
      List.length_append, Bytes.length_ofString]
    omega
  have hdenom' := htext 1 c.denom (by decide) hdenom
  have hamount' := htext 2 c.amount (by decide) (by omega)
  have hbound : c.denom.utf8ByteSize < 2 ^ 63 := hdenom
  simp only [Wire.Layout.write, layout, Wire.Field.text, List.flatMap_cons, List.flatMap_nil,
    List.append_nil, List.length_append]
  split <;> split <;> grind

theorem merges (c : CoinRecord) (depth : Nat) (rest : Bytes) (hdenom : Addressable c.denom)
    (hamount : Addressable c.amount) :
    layout.Merges depth rest.length layout.blank (layout.write c ++ rest) (c, rest) := by
  simp only [Wire.Layout.write, layout, List.flatMap_cons, List.flatMap_nil, List.append_assoc,
    List.nil_append]
  apply Wire.Layout.Merges.text rfl (by decide) (by decide) (Bytes.length_ofString_lt hdenom)
    (fun _ => rfl) (by simp)
  apply Wire.Layout.Merges.text rfl (by decide) (by decide) (Bytes.length_ofString_lt hamount)
    (fun _ => rfl) (by simp)
  exact Wire.Layout.Merges.done (Nat.le_refl _)

end CoinRecord

namespace EscrowRecord

theorem read_write (r : EscrowRecord) {c : CoinRecord} (hid : Addressable r.escrowId)
    (hchain : Addressable r.chain) (hrecipient : Addressable r.recipient)
    (hcoin : r.amount = some c) (hdenom : Addressable c.denom)
    (hamount : c.amount.utf8ByteSize ≤ 39) : layout.read (layout.write r) = .ok r := by
  have hamount' : Addressable c.amount := Nat.lt_of_le_of_lt hamount (by decide)
  obtain ⟨escrowId, chain, amount, recipient, expiryHeight, expiryTime, status⟩ := r
  subst hcoin
  apply Wire.Layout.read_eq_ok
  simp only [Wire.Layout.write, layout, List.flatMap_cons, List.flatMap_nil]
  apply Wire.Layout.Merges.text rfl (by decide) (by decide) (Bytes.length_ofString_lt hid)
    (fun _ => rfl) (by simp)
  apply Wire.Layout.Merges.text rfl (by decide) (by decide) (Bytes.length_ofString_lt hchain)
    (fun _ => rfl) (by simp)
  refine Wire.Layout.Merges.message (x := c) rfl (by decide) (by decide) ?_ ?_
    (CoinRecord.length_write_lt hdenom hamount) (CoinRecord.merges c _ _ hdenom hamount') (by simp)
    ?_
  · rfl
  · rfl
  apply Wire.Layout.Merges.text rfl (by decide) (by decide) (Bytes.length_ofString_lt hrecipient)
    (fun _ => rfl) (by simp)
  apply Wire.Layout.Merges.uint64 rfl (by decide) (by decide) (fun _ => rfl) (by simp)
  apply Wire.Layout.Merges.uint64 rfl (by decide) (by decide) (fun _ => rfl) (by simp)
  apply Wire.Layout.Merges.int32 rfl (by decide) (by decide) (fun _ => rfl) (by simp)
  exact Wire.Layout.Merges.done (Nat.le_refl _)

end EscrowRecord

theorem Status.ofCode?_code (s : Status) : Status.ofCode? s.code = some s := by
  cases s <;> rfl

namespace Escrow

/-- Every text of the escrow is one in memory. -/
structure Addressable (e : Escrow) : Prop where
  id : Text.Addressable e.id
  chain : Text.Addressable e.chain
  denom : Text.Addressable e.amount.denom
  recipient : Text.Addressable e.recipient

theorem ofRecord_record (e : Escrow) : ofRecord e.record = .ok e := by
  have hamount : amountOfRecord e.amount.amount.text = .ok e.amount.amount := by
    rw [amountOfRecord, if_neg e.amount.amount.text_ne_empty, Amount.read_text]
    rfl
  rw [ofRecord]
  simp only [record, Status.ofCode?_code, Option.getD_some, hamount]
  rfl

/-- What was written of an escrow is read as that escrow. -/
theorem decode_encode {e : Escrow} (he : e.Addressable) : decode e.encode = .ok e := by
  have hread : EscrowRecord.layout.read e.encode = .ok e.record :=
    EscrowRecord.read_write e.record he.id he.chain he.recipient rfl he.denom
      (Text.Decimal.utf8ByteSize_toString_le (by decide)
        (Nat.lt_trans e.amount.amount.val_lt (by decide)))
  rw [decode, hread]
  exact ofRecord_record e

theorem encode_injective {e e' : Escrow} (he : e.Addressable) (he' : e'.Addressable)
    (h : e.encode = e'.encode) : e = e' := by
  have hread : decode e.encode = decode e'.encode := by rw [h]
  rw [decode_encode he, decode_encode he'] at hread
  exact Except.ok.inj hread

/-- Even the escrow that consists of defaults has its amount written out. -/
theorem encode_ne_nil (e : Escrow) : e.encode ≠ [] := by
  have hamount : Wire.Field.message 3 "amount" CoinRecord.layout EscrowRecord.amount
      (fun r c => { r with amount := some c }) ∈ EscrowRecord.layout.fields := by
    simp [EscrowRecord.layout]
  exact Wire.Layout.write_ne_nil hamount (Wire.keyed_ne_nil _ _ _)

/-- The committed form of an escrow determines it, is read back as it, and is taken by the store
under any key. Texts are as long as memory allows. -/
theorem encode_canonical {e : Escrow} (he : e.Addressable) :
    decode e.encode = .ok e ∧
      (∀ e' : Escrow, e'.Addressable → e'.encode = e.encode → e' = e) ∧
      e.encode ≠ [] ∧
      ∀ (key : Bytes) (s : Store), Store.save key e.encode s = .ok () (s.insert key e.encode) := by
  refine ⟨decode_encode he, ?_, encode_ne_nil e, ?_⟩
  · intro e' he' hsame
    exact encode_injective he' he hsame
  · intro key s
    rw [Store.save, if_neg (encode_ne_nil e)]
    rfl

/-- The empty text, texts beyond ASCII and the greatest numbers are no exceptions. -/
theorem encode_canonical_extremes :
    let e : Escrow := ⟨"", "łańcuch-鏈", ⟨"", ⟨2 ^ 128 - 1, by decide⟩⟩, "",
      18446744073709551615, 0, .canceled⟩
    e.Addressable ∧ decode e.encode = .ok e ∧ e.encode ≠ [] := by
  intro e
  have he : e.Addressable := ⟨by decide, by decide, by decide, by decide⟩
  obtain ⟨hread, -, hne, -⟩ := encode_canonical he
  exact ⟨he, hread, hne⟩

end Escrow

end Custody
