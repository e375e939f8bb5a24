import Custody.Coin
import Custody.Store.Key
import Custody.Proofs.Text.Bytes

/-!
# Telling store keys apart

Keys of different families differ, and within a family a key belongs to one name only. A chain may
hold any bytes, the separator of the route index included, but a valid denomination holds no
separator: the last one in a route key ends the chain.
-/

namespace Custody

namespace Coin

theorem toNat_of_isDenomLetter {c : Char} (hc : isDenomLetter c) :
    0 < c.toNat ∧ c.toNat < 128 := by
  have hletter : (decide (65 ≤ c.toNat ∧ c.toNat ≤ 90) ||
      (decide (97 ≤ c.toNat) && decide (c.toNat ≤ 122))) = true := hc
  simp only [Bool.or_eq_true, Bool.and_eq_true, decide_eq_true_eq] at hletter
  omega

theorem toNat_of_isDenomSign {c : Char} (hc : isDenomSign c) : 0 < c.toNat ∧ c.toNat < 128 := by
  unfold isDenomSign Char.isAlphanum at hc
  simp only [Bool.or_eq_true, beq_iff_eq] at hc
  rcases hc with ((((((hc | hc) | rfl) | rfl) | rfl) | rfl) | rfl)
  · exact toNat_of_isDenomLetter hc
  · have hdigit : 48 ≤ c.toNat ∧ c.toNat ≤ 57 := by
      simpa [Char.isDigit, UInt32.le_iff_toNat_le] using hc
    omega
  all_goals decide

theorem toNat_of_mem_denom {denom : String} (hvalid : validDenom denom) {c : Char}
    (hc : c ∈ denom.toList) : 0 < c.toNat ∧ c.toNat < 128 := by
  unfold validDenom at hvalid
  split at hvalid
  · cases hvalid
  · rename_i first rest hchars
    simp only [Bool.and_eq_true, List.all_eq_true] at hvalid
    rw [hchars, List.mem_cons] at hc
    rcases hc with rfl | hc
    · exact toNat_of_isDenomLetter hvalid.1.1.1
    · exact toNat_of_isDenomSign (hvalid.2 c hc)

theorem ofString_denom {denom : String} (hvalid : validDenom denom) :
    Bytes.ofString denom = denom.toList.map fun c => UInt8.ofNat c.toNat :=
  Bytes.ofString_of_ascii fun _ hc => (toNat_of_mem_denom hvalid hc).2

theorem zero_not_mem_denom {denom : String} (hvalid : validDenom denom) :
    (0 : UInt8) ∉ Bytes.ofString denom := by
  rw [ofString_denom hvalid, List.mem_map]
  rintro ⟨c, hc, hzero⟩
  obtain ⟨hpos, hsmall⟩ := toNat_of_mem_denom hvalid hc
  have hnat := congrArg UInt8.toNat hzero
  rw [UInt8.toNat_ofNat', Nat.mod_eq_of_lt (by omega)] at hnat
  have hempty : c.toNat = 0 := hnat
  omega

theorem addressable_of_validDenom {denom : String} (hvalid : validDenom denom) :
    Text.Addressable denom := by
  have hlength : denom.toList.length ≤ 128 := by
    unfold validDenom at hvalid
    split at hvalid
    · cases hvalid
    · rename_i first rest hchars
      simp only [Bool.and_eq_true, decide_eq_true_eq] at hvalid
      rw [hchars, List.length_cons]
      omega
  unfold Text.Addressable
  rw [← Bytes.length_ofString, ofString_denom hvalid, List.length_map]
  omega

theorem validDenom_of_checkDenom {denom : String} {u : Unit} (h : checkDenom denom = .ok u) :
    validDenom denom := by
  unfold checkDenom at h
  split at h
  · assumption
  · cases h

theorem of_check {c : Coin} (h : c.check = .ok ()) : validDenom c.denom ∧ 0 < c.amount.val := by
  unfold check at h
  rcases hdenom : checkDenom c.denom with e | u
  · rw [hdenom] at h
    cases h
  · rw [hdenom] at h
    change (if c.amount.val = 0 then _ else _) = _ at h
    split at h
    · cases h
    · rename_i hpos
      exact ⟨validDenom_of_checkDenom hdenom, Nat.pos_of_ne_zero hpos⟩

end Coin

namespace Store.Key

/-- The keys that escrows are kept under: those whose first byte is at most two. -/
def OfLedger : Bytes → Prop
  | [] => False
  | b :: _ => b < 3

theorem ofLedger_counter : OfLedger counter := by
  change (0x00 : UInt8) < 3
  decide

theorem ofLedger_record (name : Bytes) : OfLedger (0x01 :: name) := by
  change (0x01 : UInt8) < 3
  decide

theorem ofLedger_index (name : Bytes) : OfLedger (0x02 :: name) := by
  change (0x02 : UInt8) < 3
  decide

theorem ofLedger_escrow (id : String) : OfLedger (escrow id) := ofLedger_record _

theorem ofLedger_route (chain denom : String) : OfLedger (route chain denom) := ofLedger_index _

theorem depositor_eq (id : String) :
    depositor id = 0x00 :: 0x09 :: (Bytes.ofString "depositor" ++ Bytes.ofString id) := rfl

theorem ofLedger_depositor (id : String) : OfLedger (depositor id) := by
  change (0x00 : UInt8) < 3
  decide

theorem not_ofLedger_channel (id : String) : ¬ OfLedger (channel id) := by
  change ¬ (0x61 : UInt8) < 3
  decide

theorem not_ofLedger_account (chain : String) : ¬ OfLedger (account chain) := by
  change ¬ (0x41 : UInt8) < 3
  decide

theorem account_ne_channel (chain id : String) : account chain ≠ channel id := by
  intro h
  have hhead : some (0x41 : UInt8) = some 0x61 := congrArg List.head? h
  exact absurd (Option.some.inj hhead) (by decide)

theorem not_ofLedger_config : ¬ OfLedger config := by
  change ¬ (0x63 : UInt8) < 3
  decide

theorem not_ofLedger_version : ¬ OfLedger version := by
  change ¬ (0x63 : UInt8) < 3
  decide

@[simp] theorem escrow_inj {id id' : String} : escrow id = escrow id' ↔ id = id' := by
  rw [escrow, escrow, List.cons.injEq, Bytes.ofString_inj]
  exact and_iff_right rfl

@[simp] theorem depositor_inj {id id' : String} : depositor id = depositor id' ↔ id = id' := by
  rw [depositor, depositor, List.append_cancel_left_eq, Bytes.ofString_inj]

@[simp] theorem channel_inj {id id' : String} : channel id = channel id' ↔ id = id' := by
  rw [channel, channel, List.append_cancel_left_eq, Bytes.ofString_inj]

@[simp] theorem account_inj {chain chain' : String} :
    account chain = account chain' ↔ chain = chain' := by
  rw [account, account, List.append_cancel_left_eq, Bytes.ofString_inj]

private theorem append_separator_inj {b : UInt8} {x x' z z' : Bytes} (hz : b ∉ z) (hz' : b ∉ z')
    (h : x ++ b :: z = x' ++ b :: z') : x = x' ∧ z = z' := by
  rcases List.append_eq_append_iff.1 h with ⟨gap, hx, htail⟩ | ⟨gap, hx, htail⟩
  · cases gap with
    | nil => simpa using And.intro hx.symm (List.cons.inj htail).2
    | cons y gap =>
        rw [List.cons_append, List.cons.injEq] at htail
        exact absurd (by simp [htail.2]) hz
  · cases gap with
    | nil => simpa using And.intro hx (List.cons.inj htail).2.symm
    | cons y gap =>
        rw [List.cons_append, List.cons.injEq] at htail
        exact absurd (by simp [htail.2]) hz'

/-- A route key is that of one chain and one denomination, as long as the latter holds no zero. -/
theorem route_inj_of_zero_not_mem {chain chain' denom denom' : String}
    (hzero : (0 : UInt8) ∉ Bytes.ofString denom) (hzero' : (0 : UInt8) ∉ Bytes.ofString denom') :
    route chain denom = route chain' denom' ↔ chain = chain' ∧ denom = denom' := by
  constructor
  · intro h
    rw [route, route, List.cons_append, List.cons_append, List.cons.injEq] at h
    obtain ⟨hchain, hname⟩ := append_separator_inj hzero hzero' h.2
    exact ⟨Bytes.ofString_injective hchain, Bytes.ofString_injective hname⟩
  · rintro ⟨rfl, rfl⟩
    rfl

theorem route_inj {chain chain' denom denom' : String} (hdenom : Coin.validDenom denom)
    (hdenom' : Coin.validDenom denom') :
    route chain denom = route chain' denom' ↔ chain = chain' ∧ denom = denom' :=
  route_inj_of_zero_not_mem (Coin.zero_not_mem_denom hdenom) (Coin.zero_not_mem_denom hdenom')

end Store.Key

end Custody
