import Custody.Escrow.Message
import Custody.Proofs.Bech32.Text

/-!
# Addresses and the bytes they stand for

An address is accepted under a lower-case prefix exactly if it is spelled in one case and its
lower-case spelling is what is written for its bytes (`payload_eq_ok`). So what is written is
accepted, and under no other prefix.
-/

namespace Custody

namespace Hash.Sha256

theorem length_digest (message : Bytes) : (digest message).length = 32 := by
  simp [digest, State.words]

end Hash.Sha256

namespace Address

open Bech32 (Readable written symbolsOfBytes)
open Text (Lower OneCase)

variable {hrp : String} {address : Address} {raw : Bytes}

/-- The bytes that an address may stand for. -/
def Sized (raw : Bytes) : Prop := 1 ≤ raw.length ∧ raw.length ≤ 255

theorem encode_eq_ok : encode hrp raw = .ok address ↔
    Readable hrp ∧ OneCase hrp.toList ∧
      address = written hrp.toLower (symbolsOfBytes raw) .bech32 :=
  Bech32.encode_eq_ok

/-- Under a prefix without upper-case letters only the characters of the prefix matter. -/
theorem encode_eq_ok_of_lower (hlower : Lower hrp.toList) : encode hrp raw = .ok address ↔
    Readable hrp ∧ address = written hrp (symbolsOfBytes raw) .bech32 := by
  rw [encode_eq_ok, Text.toLower_eq_iff.2 hlower]
  exact and_congr_right fun _ => and_iff_right (.inl hlower)

theorem allBlank_eq_false_of_decode {d : Bech32.Decoded} (h : Bech32.decode address = .ok d) :
    Text.allBlank address = false := by
  obtain ⟨hrp, tail, -, -, hsplit, -⟩ := Bech32.decode_eq_ok_parts.1 h
  have hchars := (Bech32.splitLast_eq_some.1 hsplit).1
  have hone : '1' ∈ address.toList := by
    rw [hchars]
    simp
  rw [Text.allBlank, List.all_eq_false]
  exact ⟨'1', hone, by decide⟩

theorem payload_of_decode {d : Bech32.Decoded} (h : Bech32.decode address = .ok d) :
    payload hrp address = if d.variant ≠ .bech32 then .error .wrongVariant
      else if d.hrp ≠ hrp then .error (.wrongHrp hrp d.hrp)
      else match Bech32.bytesOfSymbols? d.data with
        | none => .error (.malformed .invalidPadding)
        | some raw => if 0 < raw.length ∧ raw.length ≤ 255 then .ok raw
            else .error (.outOfRange raw.length) := by
  unfold payload
  rw [allBlank_eq_false_of_decode h, h, if_neg Bool.false_ne_true]
  change (if d.variant ≠ .bech32 then _ else if d.hrp ≠ hrp then _ else
    match Bech32.bytesOfSymbols? d.data with
    | none => _
    | some raw => _) = _
  by_cases hvariant : d.variant ≠ .bech32
  · rw [if_pos hvariant, if_pos hvariant]
    rfl
  · rw [if_neg hvariant, if_neg hvariant]
    by_cases hhrp : d.hrp ≠ hrp
    · rw [if_pos hhrp, if_pos hhrp]
      rfl
    · rw [if_neg hhrp, if_neg hhrp]
      rfl

theorem payload_eq_ok_parts : payload hrp address = .ok raw ↔
    Bech32.decode address = .ok ⟨hrp, symbolsOfBytes raw, .bech32⟩ ∧ Sized raw := by
  constructor
  · intro h
    cases hdecode : Bech32.decode address with
    | error why =>
        unfold payload at h
        rw [hdecode] at h
        split at h
        · cases h
        · cases h
    | ok d =>
        rw [payload_of_decode hdecode] at h
        split at h
        · cases h
        · rename_i hvariant
          split at h
          · cases h
          · rename_i hhrp
            split at h
            · cases h
            · rename_i bytes hbytes
              split at h
              · rename_i hsize
                cases h
                obtain ⟨hrp', data, variant⟩ := d
                obtain rfl := not_not.1 hvariant
                obtain rfl := not_not.1 hhrp
                obtain rfl := Bech32.bytesOfSymbols?_eq_some.1 hbytes
                exact ⟨rfl, hsize⟩
              · cases h
  · rintro ⟨hdecode, hsize⟩
    rw [payload_of_decode hdecode]
    simp only [ne_eq, not_true, if_false, Bech32.bytesOfSymbols?_symbolsOfBytes]
    exact if_pos hsize

/-- An address stands for the bytes whose written form it is, up to the case of its letters. -/
theorem payload_eq_ok : payload hrp address = .ok raw ↔
    Lower hrp.toList ∧ Sized raw ∧ OneCase address.toList ∧
      encode hrp raw = .ok address.toLower := by
  rw [payload_eq_ok_parts, Bech32.decode_eq_ok]
  constructor
  · rintro ⟨⟨hreadable, hlower, hcase, htext⟩, hsize⟩
    exact ⟨hlower, hsize, hcase, (encode_eq_ok_of_lower hlower).2 ⟨hreadable, htext⟩⟩
  · rintro ⟨hlower, hsize, hcase, hencode⟩
    obtain ⟨hreadable, htext⟩ := (encode_eq_ok_of_lower hlower).1 hencode
    exact ⟨⟨hreadable, hlower, hcase, htext⟩, hsize⟩

theorem validate_of_payload (h : payload hrp address = .ok raw) :
    validate hrp address = .ok address := by
  unfold validate
  rw [h]
  rfl

/-! ## What is written is accepted -/

section Written

variable (hlower : Lower hrp.toList)

include hlower

theorem lower_of_encode (h : encode hrp raw = .ok address) : Lower address.toList := by
  obtain ⟨-, rfl⟩ := (encode_eq_ok_of_lower hlower).1 h
  exact Bech32.lower_written hlower _ _

theorem decode_of_encode (h : encode hrp raw = .ok address) :
    Bech32.decode address = .ok ⟨hrp, symbolsOfBytes raw, .bech32⟩ := by
  have haddress := lower_of_encode hlower h
  obtain ⟨hreadable, htext⟩ := (encode_eq_ok_of_lower hlower).1 h
  refine Bech32.decode_eq_ok.2 ⟨hreadable, hlower, .inl haddress, ?_⟩
  rw [Text.toLower_eq_iff.2 haddress]
  exact htext

theorem payload_of_encode (h : encode hrp raw = .ok address) (hsize : Sized raw) :
    payload hrp address = .ok raw :=
  payload_eq_ok_parts.2 ⟨decode_of_encode hlower h, hsize⟩

theorem encode_inj {raw' : Bytes} (h : encode hrp raw = .ok address)
    (h' : encode hrp raw' = .ok address) : raw' = raw := by
  have hdecode := decode_of_encode hlower h'
  rw [decode_of_encode hlower h, Except.ok.injEq, Bech32.Decoded.mk.injEq] at hdecode
  exact (Bech32.symbolsOfBytes_inj.1 hdecode.2.1).symm

/-- What is written under one prefix is refused under any other. -/
theorem validate_of_encode_other (h : encode hrp raw = .ok address)
    {other : String} (hother : other ≠ hrp) :
    validate other address = .error (.wrongHrp other hrp) := by
  unfold validate
  rw [payload_of_decode (decode_of_encode hlower h)]
  simp only [ne_eq, not_true, if_false, if_pos hother.symm]
  rfl

theorem encode_isOk_iff : (∃ s, encode hrp raw = .ok s) ↔
    1 ≤ hrp.length ∧ hrp.length ≤ 83 ∧ ∀ c ∈ hrp.toList, 33 ≤ c.toNat ∧ c.toNat ≤ 126 := by
  simp only [encode_eq_ok_of_lower hlower]
  constructor
  · rintro ⟨s, hreadable, -⟩
    exact ⟨hreadable.pos, hreadable.le, hreadable.visible⟩
  · rintro ⟨hpos, hle, hvisible⟩
    exact ⟨_, ⟨hpos, hle, hvisible⟩, rfl⟩

theorem validate_of_ofDigest {preimage : Bytes} (h : ofDigest hrp preimage = .ok address) :
    validate hrp address = .ok address := by
  apply validate_of_payload
  apply payload_of_encode hlower h
  rw [Sized, List.length_take, Hash.Sha256.length_digest]
  omega

end Written

/-- Under a prefix without upper-case letters: bytes have an address exactly if the prefix has 1 to
83 visible characters; the address is accepted as it is and belongs to no other bytes; and it is
invalid under every other prefix. The addresses of modules and channels are accepted. -/
theorem encoded_accepted (hlower : ∀ c ∈ hrp.toList, ¬ c.isUpper)
    (hsize : 1 ≤ raw.length ∧ raw.length ≤ 255) :
    ((∃ s, encode hrp raw = .ok s) ↔
      1 ≤ hrp.length ∧ hrp.length ≤ 83 ∧ ∀ c ∈ hrp.toList, 33 ≤ c.toNat ∧ c.toNat ≤ 126) ∧
    (∀ s, encode hrp raw = .ok s →
      validate hrp s = .ok s ∧ payload hrp s = .ok raw ∧
      (∀ raw', encode hrp raw' = .ok s → raw' = raw) ∧
      ∀ other, other ≠ hrp →
        requireAddress other s = .error (.invalidAddress none (.wrongHrp other hrp))) ∧
    (∀ name s, ofModule hrp name = .ok s → validate hrp s = .ok s) ∧
    ∀ port channel s, ofChannelEscrow hrp port channel = .ok s → validate hrp s = .ok s := by
  refine ⟨encode_isOk_iff hlower, fun s h => ?_, fun name s => validate_of_ofDigest hlower,
    fun port channel s => validate_of_ofDigest hlower⟩
  have hpayload := payload_of_encode hlower h hsize
  refine ⟨validate_of_payload hpayload, hpayload, fun raw' => encode_inj hlower h, ?_⟩
  intro other hother
  rw [requireAddress, validate_of_encode_other hlower h hother]
  rfl

theorem encoded_accepted_separator_in_prefix :
    let raw : Bytes := [0xFF, 0x00, 0x01]
    (∀ c ∈ "a1b".toList, ¬ c.isUpper) ∧ (1 ≤ raw.length ∧ raw.length ≤ 255) ∧
      encode "a1b" raw = .ok "a1b1luqqzcjanlr" ∧
      validate "a1b" "a1b1luqqzcjanlr" = .ok "a1b1luqqzcjanlr" ∧
      requireAddress "a" "a1b1luqqzcjanlr" =
        .error (.invalidAddress none (.wrongHrp "a" "a1b")) := by
  intro raw
  have hlower : ∀ c ∈ "a1b".toList, ¬ c.isUpper := by simp
  have hsize : 1 ≤ raw.length ∧ raw.length ≤ 255 := by decide
  have hencode : encode "a1b" raw = .ok "a1b1luqqzcjanlr" := by decide +kernel
  obtain ⟨hvalid, -, -, hother⟩ := (encoded_accepted hlower hsize).2.1 _ hencode
  exact ⟨hlower, hsize, hencode, hvalid, hother "a" (by decide)⟩

end Address

end Custody
