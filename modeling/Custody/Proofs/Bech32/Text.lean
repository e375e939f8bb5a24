import Custody.Bech32.Basic
import Custody.Proofs.Bech32.Code
import Custody.Proofs.Text.Case

/-!
# Which texts are read

A text is read exactly if its letters are in one case and its lower-case spelling is what is written
for the human-readable part, the data and the variant (`decode_eq_ok`).
-/

namespace Custody.Bech32

open Text (Lower Upper OneCase)

/-! ## Symbols as characters -/

theorem Symbol.forall_of_lt {p : Symbol → Prop} (h : ∀ n < 32, p (BitVec.ofNat 5 n)) (s : Symbol) :
    p s := by
  have hs := h s.toNat s.isLt
  rwa [BitVec.ofNat_toNat, BitVec.setWidth_eq] at hs

theorem Symbol.toChar_ne_separator (s : Symbol) : s.toChar ≠ '1' := by
  revert s
  apply forall_of_lt
  decide

theorem Symbol.not_isUpper_toChar (s : Symbol) : ¬ s.toChar.isUpper := by
  revert s
  apply forall_of_lt
  decide

theorem Symbol.toNat_toChar_lt (s : Symbol) : s.toChar.toNat < 128 := by
  revert s
  apply forall_of_lt
  decide

theorem Symbol.ofChar?_toChar (s : Symbol) : ofChar? s.toChar = some s := by
  revert s
  apply forall_of_lt
  decide

theorem Symbol.ofChar?_eq_some {c : Char} {s : Symbol} :
    ofChar? c = some s ↔ c.toLower = s.toChar := by
  constructor
  · intro h
    obtain ⟨i, hi, rfl⟩ := Option.map_eq_some_iff.1 h
    obtain ⟨hbound, hchar, -⟩ := List.idxOf?_eq_some_iff.1 hi
    have hsmall : i < 32 := hbound
    rw [toChar, BitVec.toNat_ofNat, Nat.mod_eq_of_lt hsmall, List.getElem?_eq_getElem hbound, hchar]
    rfl
  · intro h
    have hlower := Text.toLower_eq_self_iff.2 s.not_isUpper_toChar
    have hread := s.ofChar?_toChar
    rw [ofChar?, hlower, ← h] at hread
    exact hread

/-- A character that is a symbol in lower case is ASCII itself. -/
theorem toNat_lt_of_toLower {c : Char} {s : Symbol} (h : c.toLower = s.toChar) :
    c.toNat < 128 := by
  by_cases hupper : c.isUpper
  · have hlast : c.toNat ≤ 'Z'.toNat := (of_decide_eq_true hupper).2
    have hninety : 'Z'.toNat = 90 := rfl
    omega
  · rw [← Text.toLower_eq_self_iff.2 hupper, h]
    exact s.toNat_toChar_lt

/-! ## Letters in one case -/

/-- The characters go on in the case of the letters seen so far. -/
def Letters.Admits : Letters → List Char → Prop
  | .unseen => OneCase
  | .lower => Lower
  | .upper => Upper

theorem Letters.see_admits {seen : Letters} {c : Char} {cs : List Char} :
    (∃ now, seen.see c = .ok now ∧ now.Admits cs) ↔ seen.Admits (c :: cs) := by
  have hboth : c.isLower → ¬ c.isUpper := Char.not_isUpper_of_isLower
  unfold see
  by_cases hlower : c.isLower
  · cases seen <;> simp [hlower, hboth hlower, Admits, OneCase]
  · by_cases hupper : c.isUpper
    · cases seen <;> simp [hlower, hupper, Admits, OneCase]
    · cases seen <;> simp [hlower, hupper, Admits, OneCase]

theorem visibleBytes_admits {seen : Letters} {bs : Bytes} {rest : List Char} :
    (∃ now, visibleBytes seen bs = .ok now ∧ now.Admits rest) ↔
      (∀ b ∈ bs, 33 ≤ b ∧ b ≤ 126) ∧
        seen.Admits (bs.map (fun b => Char.ofNat b.toNat) ++ rest) := by
  induction bs generalizing seen with
  | nil => simp [visibleBytes]
  | cons b bs ih =>
      by_cases hvisible : 33 ≤ b ∧ b ≤ 126
      · rw [visibleBytes, if_pos hvisible, List.forall_mem_cons, List.map_cons, List.cons_append,
          ← Letters.see_admits]
        cases hsee : seen.see (Char.ofNat b.toNat) with
        | error why => simp [bind, Except.bind]
        | ok next =>
            change (∃ now, visibleBytes next bs = .ok now ∧ now.Admits rest) ↔ _
            rw [ih]
            simp [hvisible]
      · rw [visibleBytes, if_neg hvisible, List.forall_mem_cons]
        simp [hvisible]

/-! ## The human-readable part -/

/-- Up to 83 visible characters. -/
structure Readable (hrp : String) : Prop where
  pos : 1 ≤ hrp.length
  le : hrp.length ≤ 83
  visible : ∀ c ∈ hrp.toList, 33 ≤ c.toNat ∧ c.toNat ≤ 126

theorem visible_bytes_iff {hrp : String} :
    (∀ b ∈ Bytes.ofString hrp, 33 ≤ b ∧ b ≤ 126) ↔
      ∀ c ∈ hrp.toList, 33 ≤ c.toNat ∧ c.toNat ≤ 126 := by
  constructor
  · intro h c hc
    have hascii : ∀ b ∈ Bytes.ofString hrp, 33 ≤ b.toNat ∧ b.toNat ≤ 126 := by
      simpa only [UInt8.le_iff_toNat_le, UInt8.reduceToNat] using h
    rw [Bytes.toList_of_ascii fun b hb => by have := hascii b hb; omega, List.mem_map] at hc
    obtain ⟨b, hb, rfl⟩ := hc
    have hsmall := hascii b hb
    rwa [Char.toNat_ofNat, if_pos (.inl (by omega))]
  · intro h b hb
    rw [Bytes.ofString_of_ascii fun c hc => by have := h c hc; omega, List.mem_map] at hb
    obtain ⟨c, hc, rfl⟩ := hb
    have hsmall := h c hc
    rw [UInt8.le_iff_toNat_le, UInt8.le_iff_toNat_le, UInt8.toNat_ofNat',
      Nat.mod_eq_of_lt (by omega)]
    exact hsmall

theorem readablePart_admits {hrp : String} {rest : List Char} :
    (∃ now, readablePart hrp = .ok now ∧ now.Admits rest) ↔
      Readable hrp ∧ OneCase (hrp.toList ++ rest) := by
  have hlength : (∀ c ∈ hrp.toList, 33 ≤ c.toNat ∧ c.toNat ≤ 126) →
      (Bytes.ofString hrp).length = hrp.length := by
    intro h
    rw [Bytes.ofString_of_ascii fun c hc => by have := h c hc; omega, List.length_map,
      String.length_toList]
  have hchars : (∀ b ∈ Bytes.ofString hrp, 33 ≤ b ∧ b ≤ 126) →
      (Bytes.ofString hrp).map (fun b => Char.ofNat b.toNat) = hrp.toList := by
    intro h
    rw [← Bytes.toList_of_ascii]
    intro b hb
    have hsmall := UInt8.le_iff_toNat_le.1 (h b hb).2
    exact Nat.lt_of_le_of_lt hsmall (by decide)
  unfold readablePart
  constructor
  · rintro ⟨now, hread, hadmits⟩
    simp only at hread
    split at hread
    · cases hread
    · rename_i hsize
      obtain ⟨hbytes, hcase⟩ := visibleBytes_admits.1 ⟨now, hread, hadmits⟩
      rw [hchars hbytes] at hcase
      have hvisible := visible_bytes_iff.1 hbytes
      rw [List.isEmpty_iff_length_eq_zero, hlength hvisible] at hsize
      exact ⟨⟨by omega, by omega, hvisible⟩, hcase⟩
  · rintro ⟨hreadable, hcase⟩
    have hbytes := visible_bytes_iff.2 hreadable.visible
    have hsize : ¬ ((Bytes.ofString hrp).isEmpty ∨ 83 < (Bytes.ofString hrp).length) := by
      rw [List.isEmpty_iff_length_eq_zero, hlength hreadable.visible]
      have hpos := hreadable.pos
      have hle := hreadable.le
      omega
    simp only [if_neg hsize]
    apply visibleBytes_admits.2
    rw [hchars hbytes]
    exact ⟨hbytes, hcase⟩

theorem lowered_eq {hrp : String} {seen : Letters} (h : readablePart hrp = .ok seen) :
    lowered hrp seen = hrp.toLower := by
  unfold lowered
  by_cases hupper : seen = .upper
  · rw [if_pos hupper, ← String.toList_inj, String.toList_ofList, String.toLower,
      String.toList_map]
  · rw [if_neg hupper]
    -- Another lower-case letter would do, so no letter is in upper case.
    have hletter : Lower ['a'] := Text.lower_cons.2 ⟨by decide, Text.lower_nil⟩
    have hmore : seen.Admits ['a'] := by
      cases seen with
      | unseen => exact .inl hletter
      | lower => exact hletter
      | upper => exact absurd rfl hupper
    obtain ⟨-, hcase⟩ := readablePart_admits.1 ⟨seen, h, hmore⟩
    rcases hcase with hlower | hnone
    · exact (Text.toLower_eq_iff.2 (Text.lower_append.1 hlower).1).symm
    · have hboth := (Text.upper_cons.1 (Text.upper_append.1 hnone).2).1
      exact absurd (by decide) hboth

/-! ## The data -/

theorem readData_eq_ok {seen : Letters} {cs : List Char} {data : List Symbol} :
    readData seen cs = .ok data ↔
      seen.Admits cs ∧ cs.map Char.toLower = data.map Symbol.toChar := by
  induction cs generalizing seen data with
  | nil =>
      have hnil : seen.Admits [] := by cases seen <;> simp [Letters.Admits, OneCase]
      cases data with
      | nil => exact ⟨fun _ => ⟨hnil, rfl⟩, fun _ => rfl⟩
      | cons s data => exact ⟨fun h => (by cases h), fun h => (by cases h.2)⟩
  | cons c cs ih =>
      rw [← Letters.see_admits]
      constructor
      · intro h
        rw [readData] at h
        split at h
        · cases hsee : seen.see c with
          | error why =>
              rw [hsee] at h
              cases h
          | ok now =>
              rw [hsee] at h
              simp only [bind, Except.bind] at h
              cases hsymbol : Symbol.ofChar? c with
              | none =>
                  rw [hsymbol] at h
                  cases h
              | some s =>
                  cases hread : readData now cs with
                  | error why =>
                      rw [hsymbol, hread] at h
                      cases h
                  | ok more =>
                      rw [hsymbol, hread] at h
                      cases h
                      obtain ⟨hadmits, hchars⟩ := ih.1 hread
                      refine ⟨⟨now, rfl, hadmits⟩, ?_⟩
                      rw [List.map_cons, List.map_cons, hchars, Symbol.ofChar?_eq_some.1 hsymbol]
        · cases h
      · rintro ⟨⟨now, hsee, hadmits⟩, hchars⟩
        cases data with
        | nil => cases hchars
        | cons s data =>
            rw [List.map_cons, List.map_cons, List.cons.injEq] at hchars
            have hread := ih.2 ⟨hadmits, hchars.2⟩
            rw [readData, if_pos (toNat_lt_of_toLower hchars.1), hsee]
            simp only [bind, Except.bind]
            rw [Symbol.ofChar?_eq_some.2 hchars.1, hread]
            rfl

/-! ## Whole texts -/

theorem splitLast_eq_some {s hrp : String} {tail : List Char} :
    splitLast s = some (hrp, tail) ↔ s.toList = hrp.toList ++ '1' :: tail ∧ '1' ∉ tail := by
  unfold splitLast
  constructor
  · intro h
    have hback := List.takeWhile_append_dropWhile (p := (· != '1')) (l := s.toList.reverse)
    have hnone : '1' ∉ s.toList.reverse.takeWhile (· != '1') := by
      intro hmem
      simpa using List.mem_takeWhile_imp hmem
    simp only at h
    split at h
    · cases h
    · rename_i c rest hdrop
      cases h
      obtain rfl : c = '1' := by
        have hfirst := List.head_dropWhile_not (· != '1') (l := s.toList.reverse)
          (by rw [hdrop]; exact List.cons_ne_nil _ _)
        simpa [hdrop] using hfirst
      rw [hdrop] at hback
      refine ⟨?_, by rwa [List.mem_reverse]⟩
      rw [String.toList_ofList, ← List.reverse_reverse s.toList]
      nth_rewrite 1 [← hback]
      simp
  · rintro ⟨hchars, htail⟩
    have hback : s.toList.reverse = tail.reverse ++ '1' :: hrp.toList.reverse := by
      rw [hchars]
      simp
    have hplain : ∀ c ∈ tail.reverse, (c != '1') = true := by
      intro c hc
      rw [bne_iff_ne]
      rintro rfl
      exact htail (List.mem_reverse.1 hc)
    simp only [hback, List.dropWhile_append_of_pos hplain, List.takeWhile_append_of_pos hplain]
    simp

/-- The text of data under a human-readable part, with the checksum of a variant. -/
def written (hrp : String) (data : List Symbol) (v : Variant) : String :=
  hrp ++ "1" ++ String.ofList ((data ++ checksum hrp data v).map Symbol.toChar)

theorem toList_written (hrp : String) (data : List Symbol) (v : Variant) :
    (written hrp data v).toList =
      hrp.toList ++ '1' :: (data ++ checksum hrp data v).map Symbol.toChar := by
  simp [written]

theorem lower_written {hrp : String} (h : Lower hrp.toList) (data : List Symbol) (v : Variant) :
    Lower (written hrp data v).toList := by
  rw [toList_written, Text.lower_append, Text.lower_cons]
  refine ⟨h, by decide, ?_⟩
  intro c hc
  obtain ⟨s, -, rfl⟩ := List.mem_map.1 hc
  exact s.not_isUpper_toChar

theorem encode_eq_ok {hrp : String} {data : List Symbol} {s : String} :
    encode hrp data = .ok s ↔
      Readable hrp ∧ OneCase hrp.toList ∧ s = written hrp.toLower data .bech32 := by
  have hnil : ∀ seen : Letters, seen.Admits [] := by
    intro seen
    cases seen <;> simp [Letters.Admits, OneCase]
  unfold encode
  constructor
  · intro h
    cases hread : readablePart hrp with
    | error why =>
        rw [hread] at h
        cases h
    | ok seen =>
        rw [hread] at h
        cases h
        obtain ⟨hreadable, hcase⟩ := readablePart_admits.1 ⟨seen, hread, hnil seen⟩
        rw [List.append_nil] at hcase
        refine ⟨hreadable, hcase, ?_⟩
        rw [lowered_eq hread, written]
  · rintro ⟨hreadable, hcase, rfl⟩
    obtain ⟨seen, hread, -⟩ := readablePart_admits.2 ⟨hreadable, by rwa [List.append_nil]⟩
    rw [hread, written, ← lowered_eq hread]
    rfl

theorem decode_eq_ok_parts {s : String} {d : Decoded} :
    decode s = .ok d ↔ ∃ hrp tail seen symbols, splitLast s = some (hrp, tail) ∧
      readablePart hrp = .ok seen ∧ readData seen tail = .ok symbols ∧ 6 ≤ symbols.length ∧
        variant? hrp.toLower symbols = some d.variant ∧ hrp.toLower = d.hrp ∧
          symbols.take (symbols.length - 6) = d.data := by
  unfold decode
  constructor
  · intro h
    rcases hsplit : splitLast s with _ | ⟨hrp, tail⟩
    · rw [hsplit] at h
      cases h
    · rw [hsplit] at h
      cases hread : readablePart hrp with
      | error why =>
          simp only [hread] at h
          cases h
      | ok seen =>
          simp only [hread] at h
          cases hdata : readData seen tail with
          | error why =>
              change (readData seen tail >>= _) = _ at h
              rw [hdata] at h
              cases h
          | ok symbols =>
              change (readData seen tail >>= _) = _ at h
              rw [hdata, lowered_eq hread] at h
              simp only [bind, Except.bind] at h
              split at h
              · cases h
              · rename_i hlength
                split at h
                · cases h
                · rename_i v hvariant
                  cases h
                  exact ⟨hrp, tail, seen, symbols, rfl, hread, hdata, Nat.not_lt.1 hlength,
                    hvariant, rfl, rfl⟩
  · rintro ⟨hrp, tail, seen, symbols, hsplit, hread, hdata, hlength, hvariant, hhrp, htake⟩
    rw [hsplit]
    simp only [hread]
    change (readData seen tail >>= _) = _
    rw [hdata, lowered_eq hread]
    simp only [bind, Except.bind]
    rw [if_neg (Nat.not_lt.2 hlength), hvariant]
    simp only [hhrp, htake]

/-- Symbols that end in the checksum of a variant. -/
theorem recognised_iff {hrp : String} {symbols data : List Symbol} {v : Variant} :
    6 ≤ symbols.length ∧ variant? hrp symbols = some v ∧
        symbols.take (symbols.length - 6) = data ↔
      symbols = data ++ checksum hrp data v := by
  constructor
  · rintro ⟨hlength, hvariant, rfl⟩
    have hdrop : (symbols.drop (symbols.length - 6)).length = 6 := by
      rw [List.length_drop]
      omega
    rw [← List.take_append_drop (symbols.length - 6) symbols,
      variant?_append_eq_some hdrop] at hvariant
    rw [← hvariant, List.take_append_drop]
  · rintro rfl
    rw [List.length_append, length_checksum]
    exact ⟨by omega, variant?_checksum hrp data v, by simp⟩

theorem visible_toLower_iff {c : Char} :
    33 ≤ c.toLower.toNat ∧ c.toLower.toNat ≤ 126 ↔ 33 ≤ c.toNat ∧ c.toNat ≤ 126 := by
  by_cases hupper : c.isUpper
  · have hlow : 'A'.toNat ≤ c.toNat := (of_decide_eq_true hupper).1
    have hhigh : c.toNat ≤ 'Z'.toNat := (of_decide_eq_true hupper).2
    simp only [Char.reduceToNat] at hlow hhigh
    rw [Char.toLower_eq_of_isUpper hupper, Char.toNat_ofNat, if_pos (.inl (by omega))]
    omega
  · rw [Char.toLower_eq_of_not_isUpper hupper]

theorem readable_toLower_iff {hrp : String} : Readable hrp.toLower ↔ Readable hrp := by
  have hlength : hrp.toLower.length = hrp.length := by
    rw [← String.length_toList, String.toLower, String.toList_map, List.length_map,
      String.length_toList]
  have hvisible : (∀ c ∈ hrp.toLower.toList, 33 ≤ c.toNat ∧ c.toNat ≤ 126) ↔
      ∀ c ∈ hrp.toList, 33 ≤ c.toNat ∧ c.toNat ≤ 126 := by
    rw [String.toLower, String.toList_map, List.forall_mem_map]
    simp only [visible_toLower_iff]
  constructor
  · intro h
    exact ⟨hlength ▸ h.pos, hlength ▸ h.le, hvisible.1 h.visible⟩
  · intro h
    exact ⟨hlength ▸ h.pos, hlength ▸ h.le, hvisible.2 h.visible⟩

theorem eq_separator_of_toLower {c : Char} (h : c.toLower = '1') : c = '1' := by
  have halpha := Char.isLower_toLower_eq_isAlpha c
  rw [h] at halpha
  have hupper : ¬ c.isUpper := by
    intro hc
    rw [Char.isAlpha, hc, Bool.true_or] at halpha
    exact absurd halpha (by decide)
  rwa [Char.toLower_eq_of_not_isUpper hupper] at h

theorem oneCase_separator {cs ds : List Char} : OneCase (cs ++ '1' :: ds) ↔ OneCase (cs ++ ds) := by
  simp [OneCase]

/-- A text that is read is in one case, and in lower case it is what is written for what was
read. -/
theorem decode_eq_ok {s : String} {d : Decoded} :
    decode s = .ok d ↔ Readable d.hrp ∧ Lower d.hrp.toList ∧ OneCase s.toList ∧
      s.toLower = written d.hrp d.data d.variant := by
  rw [decode_eq_ok_parts, ← String.toList_inj, toList_written, String.toLower, String.toList_map]
  constructor
  · rintro ⟨hrp, tail, seen, symbols, hsplit, hread, hdata, hlength, hvariant, hhrp, htake⟩
    obtain ⟨hadmits, hsymbols⟩ := readData_eq_ok.1 hdata
    obtain ⟨hreadable, hcase⟩ := readablePart_admits.1 ⟨seen, hread, hadmits⟩
    have hchars := (splitLast_eq_some.1 hsplit).1
    have hclosed := recognised_iff.1 ⟨hlength, hvariant, htake⟩
    rw [hhrp] at hclosed
    refine ⟨hhrp ▸ readable_toLower_iff.2 hreadable, hhrp ▸ Text.lower_toLower hrp, ?_, ?_⟩
    · rw [hchars]
      exact oneCase_separator.2 hcase
    · rw [hchars, List.map_append, List.map_cons, hsymbols, hclosed, ← hhrp, String.toLower,
        String.toList_map]
      rfl
  · rintro ⟨hreadable, hlower, hcase, htext⟩
    obtain ⟨front, back, hchars, hfront, hback⟩ := List.map_eq_append_iff.1 htext
    obtain ⟨c, tail, rfl, hc, htail⟩ := List.map_eq_cons_iff.1 hback
    obtain rfl := eq_separator_of_toLower hc
    have hhrp : (String.ofList front).toLower = d.hrp := by
      rw [← String.toList_inj, String.toLower, String.toList_map, String.toList_ofList, hfront]
    have hnone : '1' ∉ tail := by
      intro hmem
      have hsymbol : Char.toLower '1' ∈ tail.map Char.toLower := List.mem_map_of_mem hmem
      rw [htail] at hsymbol
      obtain ⟨s, -, hs⟩ := List.mem_map.1 hsymbol
      exact s.toChar_ne_separator hs
    rw [hchars] at hcase
    have hcase' : OneCase ((String.ofList front).toList ++ tail) := by
      rw [String.toList_ofList]
      exact oneCase_separator.1 hcase
    have hreadable' : Readable (String.ofList front) := readable_toLower_iff.1 (hhrp ▸ hreadable)
    obtain ⟨seen, hread, hadmits⟩ := readablePart_admits.2 ⟨hreadable', hcase'⟩
    have hclosed := recognised_iff.2 (rfl : d.data ++ checksum d.hrp d.data d.variant = _)
    refine ⟨String.ofList front, tail, seen, _, ?_, hread, readData_eq_ok.2 ⟨hadmits, htail⟩,
      hclosed.1, ?_, hhrp, hclosed.2.2⟩
    · apply splitLast_eq_some.2
      rw [String.toList_ofList]
      exact ⟨hchars, hnone⟩
    · rw [hhrp]
      exact hclosed.2.1

end Custody.Bech32
