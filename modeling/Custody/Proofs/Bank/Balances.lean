import Custody.Bank.Balances

/-!
# Transfers between balances

A transfer takes from its source what it gives to its target, and leaves every other balance alone.
It is refused for lack of funds only where the source does not have them.
-/

namespace Custody.Balances

theorem balance_set (b : Balances) (account : Address) (c : Coin) (a : Address) (denom : String) :
    (b.set account c).balance a denom =
      if a = account ∧ denom = c.denom then c.amount else b.balance a denom := by
  simp only [balance, set, Table.get?_insert, Prod.mk.injEq]
  split <;> rfl

/-- What a transfer moves through an account. -/
def share (c : Coin) (account a : Address) (denom : String) : Nat :=
  if a = account ∧ denom = c.denom then c.amount.val else 0

theorem share_self (c : Coin) (a : Address) : share c a a c.denom = c.amount.val :=
  if_pos ⟨rfl, rfl⟩

theorem share_account (c : Coin) (a : Address) (denom : String) :
    share c a a denom = if c.denom = denom then c.amount.val else 0 := by
  simp [share, eq_comm]

theorem share_other {c : Coin} {account a : Address} {denom : String}
    (h : ¬ (a = account ∧ denom = c.denom)) : share c account a denom = 0 :=
  if_neg h

theorem add?_val {a b sum : Amount} (h : a.add? b = some sum) : sum.val = a.val + b.val := by
  unfold Amount.add? Amount.ofNat? at h
  split at h
  · cases h
    rfl
  · cases h

theorem send_cases {b b' : Balances} {source target : Address} {c : Coin}
    (h : b.send source target c = .ok b') :
    c.amount.val ≤ (b.balance source c.denom).val ∧
      (source = target ∧ b' = b ∨
        source ≠ target ∧ ∃ received, (b.balance target c.denom).add? c.amount = some received ∧
          b' = (b.set source ⟨c.denom, (b.balance source c.denom).sub c.amount⟩).set target
            ⟨c.denom, received⟩) := by
  unfold send at h
  simp only at h
  split at h
  · cases h
  · rename_i henough
    refine ⟨Nat.le_of_not_lt henough, ?_⟩
    split at h
    · rename_i hself
      cases h
      exact .inl ⟨hself, rfl⟩
    · rename_i hother
      split at h
      · cases h
      · rename_i received hreceived
        cases h
        exact .inr ⟨hother, received, hreceived, rfl⟩

theorem hrp_of_send {b b' : Balances} {source target : Address} {c : Coin}
    (h : b.send source target c = .ok b') : b'.hrp = b.hrp := by
  obtain ⟨-, ⟨-, rfl⟩ | ⟨-, received, -, rfl⟩⟩ := send_cases h
  · rfl
  · rfl

/-- Every balance, before and after. -/
theorem balance_of_send {b b' : Balances} {source target : Address} {c : Coin}
    (h : b.send source target c = .ok b') (a : Address) (denom : String) :
    (b'.balance a denom).val + share c source a denom =
      (b.balance a denom).val + share c target a denom := by
  obtain ⟨henough, ⟨rfl, rfl⟩ | ⟨hother, received, hreceived, rfl⟩⟩ := send_cases h
  · rfl
  · have hsum := add?_val hreceived
    rw [balance_set, balance_set]
    simp only [share]
    by_cases htarget : a = target ∧ denom = c.denom
    · obtain ⟨rfl, rfl⟩ := htarget
      have hsource : ¬ (a = source ∧ c.denom = c.denom) := fun h => hother h.1.symm
      rw [if_pos ⟨rfl, rfl⟩, if_neg hsource, if_pos ⟨rfl, rfl⟩, hsum]
      rfl
    · rw [if_neg htarget, if_neg htarget]
      by_cases hsource : a = source ∧ denom = c.denom
      · obtain ⟨rfl, rfl⟩ := hsource
        have hleft : ((b.balance a c.denom).sub c.amount).val =
            (b.balance a c.denom).val - c.amount.val := rfl
        rw [if_pos ⟨rfl, rfl⟩, if_pos ⟨rfl, rfl⟩, hleft]
        omega
      · rw [if_neg hsource, if_neg hsource]

section Sides

variable {b b' : Balances} {source target : Address} {c : Coin}

theorem balance_source_of_send (h : b.send source target c = .ok b') (hother : source ≠ target) :
    (b'.balance source c.denom).val + c.amount.val = (b.balance source c.denom).val := by
  have hmoved := balance_of_send h source c.denom
  rwa [share_self, share_other fun hboth => hother hboth.1] at hmoved

theorem balance_target_of_send (h : b.send source target c = .ok b') (hother : source ≠ target) :
    (b'.balance target c.denom).val = (b.balance target c.denom).val + c.amount.val := by
  have hmoved := balance_of_send h target c.denom
  rwa [share_self, share_other fun hboth => hother hboth.1.symm] at hmoved

/-- A transfer leaves other accounts and other denominations alone. -/
theorem balance_other_of_send (h : b.send source target c = .ok b') {a : Address} {denom : String}
    (hapart : (a ≠ source ∧ a ≠ target) ∨ denom ≠ c.denom) :
    b'.balance a denom = b.balance a denom := by
  have hmoved := balance_of_send h a denom
  rw [share_other fun hboth => hapart.elim (fun hne => hne.1 hboth.1) fun hne => hne hboth.2,
    share_other fun hboth => hapart.elim (fun hne => hne.2 hboth.1) fun hne => hne hboth.2] at hmoved
  exact Amount.ext hmoved

end Sides

/-- An account that is not the source loses nothing. -/
theorem balance_le_of_send {b b' : Balances} {source target : Address} {c : Coin}
    (h : b.send source target c = .ok b') {a : Address} (ha : a ≠ source) (denom : String) :
    (b.balance a denom).val ≤ (b'.balance a denom).val := by
  have hmoved := balance_of_send h a denom
  have hshare : share c source a denom = 0 := share_other fun h => ha h.1
  omega

/-- The account has the coin. -/
def Covers (b : Balances) (account : Address) (c : Coin) : Prop :=
  c.amount.val ≤ (b.balance account c.denom).val

instance (b : Balances) (account : Address) (c : Coin) : Decidable (b.Covers account c) :=
  inferInstanceAs (Decidable (_ ≤ _))

/-- The target can take the coin without its balance growing too large. -/
def Fits (b : Balances) (source target : Address) (c : Coin) : Prop :=
  source = target ∨ (b.balance target c.denom).val + c.amount.val < Amount.limit

instance (b : Balances) (source target : Address) (c : Coin) : Decidable (b.Fits source target c) :=
  inferInstanceAs (Decidable (_ ∨ _))

section Sending

variable {b : Balances} {source target : Address} {c : Coin}

theorem send_of_fits (hcovers : b.Covers source c) (hfits : b.Fits source target c) :
    ∃ b', b.send source target c = .ok b' := by
  unfold send
  simp only
  rw [if_neg (Nat.not_lt_of_le hcovers)]
  by_cases hself : source = target
  · exact ⟨b, if_pos hself⟩
  · have hroom := hfits.resolve_left hself
    rw [if_neg hself, Amount.add?, Amount.ofNat?, dif_pos hroom]
    exact ⟨_, rfl⟩

theorem send_overflow (hcovers : b.Covers source c) (hfits : ¬ b.Fits source target c) :
    b.send source target c = .error (.aborted .balanceOverflow) := by
  rw [Fits, not_or] at hfits
  obtain ⟨hother, hroom⟩ := hfits
  unfold send
  simp only
  rw [if_neg (Nat.not_lt_of_le hcovers), if_neg hother, Amount.add?, Amount.ofNat?, dif_neg hroom]

/-- Funds are lacking only where the source does not have them. -/
theorem send_insufficient {available : Amount} {required : Coin}
    (h : b.send source target c = .error (.payment (.insufficient available required))) :
    ¬ b.Covers source c := by
  intro hcovers
  by_cases hfits : b.Fits source target c
  · obtain ⟨b', hsend⟩ := send_of_fits hcovers hfits
    rw [hsend] at h
    cases h
  · rw [send_overflow hcovers hfits] at h
    cases h

theorem send_poor (hcovers : ¬ b.Covers source c) : b.send source target c =
    .error (.payment (.insufficient (b.balance source c.denom) c)) := by
  unfold send
  exact if_pos (Nat.lt_of_not_le hcovers)

end Sending

theorem moduleAddress_eq_ok {b : Balances} {name : String} {account custody : Address}
    (h : Custodian.moduleAddress b name = .ok account)
    (hcustody : Address.ofModule b.hrp name = .ok custody) : account = custody := by
  change (Address.ofModule b.hrp name).mapError _ = _ at h
  rw [hcustody] at h
  cases h
  rfl

end Custody.Balances
