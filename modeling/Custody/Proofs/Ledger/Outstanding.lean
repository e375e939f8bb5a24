import Custody.Proofs.Ledger.Records

/-!
# What custody owes

The amounts of the escrows on record that have not been paid back, and how they change with the
writes of the ledger.
-/

namespace Custody

open Store (Key.counter Key.escrow Key.route Key.depositor)

/-- What an escrow keeps in custody of a denomination: nothing once it is canceled. -/
def Escrow.held (denom : String) (e : Escrow) : Nat :=
  if e.amount.denom = denom ∧ e.status ≠ .canceled then e.amount.amount.val else 0

theorem Initiate.held_escrow (m : Initiate) (id denom : String) :
    (m.escrow id).held denom = if m.amount.denom = denom then m.amount.amount.val else 0 := by
  simp [Escrow.held, Initiate.escrow]

namespace Ledger

/-- All escrows on record. -/
def escrows (s : Store) : List Escrow :=
  (records s none).filterMap fun b => (Escrow.decode b).toOption

/-- The sum of a denomination over all escrows on record that are pending or claimed. -/
def outstanding (s : Store) (denom : String) : Nat :=
  ((escrows s).map (Escrow.held denom)).sum

/-! ## The sum as a total over the store -/

/-- What the bytes of a record count for. -/
def recorded (denom : String) (b : Bytes) : Nat :=
  ((Escrow.decode b).toOption.map (Escrow.held denom)).getD 0

theorem recorded_encode (denom : String) {e : Escrow} (he : e.Addressable) :
    recorded denom e.encode = e.held denom := by
  rw [recorded, Escrow.decode_encode he]
  rfl

theorem sum_filterMap (denom : String) (bs : List Bytes) :
    ((bs.filterMap fun b => (Escrow.decode b).toOption).map (Escrow.held denom)).sum =
      (bs.map (recorded denom)).sum := by
  induction bs with
  | nil => rfl
  | cons b bs ih =>
      rw [List.filterMap_cons, List.map_cons, List.sum_cons, ← ih, recorded]
      cases (Escrow.decode b).toOption with
      | none => simp
      | some e => simp

/-- What an entry of the store counts for: only records do. -/
def counts (denom : String) (entry : Bytes × Bytes) : Nat :=
  if ¬ entry.1 < [0x01] ∧ entry.1 < Store.Key.escrowEnd then recorded denom entry.2 else 0

theorem outstanding_eq_total (s : Store) (denom : String) :
    outstanding s denom = s.total (counts denom) := by
  unfold outstanding escrows
  rw [sum_filterMap, records_eq, List.map_map]
  exact Store.sum_range (recorded denom) s [0x01] Store.Key.escrowEnd

theorem counts_record (denom : String) (name b : Bytes) :
    counts denom (0x01 :: name, b) = recorded denom b :=
  if_pos (mem_records_iff.2 ⟨name, rfl⟩)

theorem counts_other (denom : String) {key : Bytes} (hkey : ∀ name, key ≠ 0x01 :: name)
    (b : Bytes) : counts denom (key, b) = 0 := by
  apply if_neg
  intro h
  obtain ⟨name, hname⟩ := mem_records_iff.1 h
  exact hkey name hname

theorem outstanding_insert_other {key : Bytes} (hkey : ∀ name, key ≠ 0x01 :: name) (s : Store)
    (b : Bytes) (denom : String) : outstanding (s.insert key b) denom = outstanding s denom := by
  rw [outstanding_eq_total, outstanding_eq_total]
  exact Store.total_insert_of_zero (counts_other denom hkey) s b

theorem outstanding_insert_record (s : Store) (name b : Bytes) (denom : String) :
    outstanding (s.insert (0x01 :: name) b) denom +
        ((s.get (0x01 :: name)).map (recorded denom)).getD 0 =
      outstanding s denom + recorded denom b := by
  have hinsert := Store.total_insert (counts denom) s (0x01 :: name) b
  simp only [counts_record] at hinsert
  rw [outstanding_eq_total, outstanding_eq_total]
  exact hinsert

theorem Same.outstanding {s t : Store} (h : Same s t) (denom : String) :
    outstanding s denom = outstanding t denom := by
  unfold Ledger.outstanding escrows
  rw [h.records]

theorem outstanding_of_records {s : Store} (h : records s none = []) (denom : String) :
    outstanding s denom = 0 := by
  unfold outstanding escrows
  rw [h]
  rfl

/-! ## What the operations do to it -/

theorem outstanding_entered (e : Escrow) (s : Store) (denom : String) :
    outstanding (entered e s) denom +
        ((s.get (Key.escrow e.id)).map (recorded denom)).getD 0 =
      outstanding s denom + recorded denom e.encode := by
  unfold entered
  rw [outstanding_insert_other]
  · exact outstanding_insert_record s (Bytes.ofString e.id) e.encode denom
  · intro name h
    cases h

theorem outstanding_opened (m : Initiate) (n : Nat) (s : Store) (denom : String) :
    outstanding (Vault.opened m n s) denom +
        ((s.get (Key.escrow (toString n))).map (recorded denom)).getD 0 =
      outstanding s denom + recorded denom (m.escrow (toString n)).encode := by
  have hcounted : outstanding (counted n s) denom = outstanding s denom := by
    apply outstanding_insert_other
    intro name h
    cases h
  have hget : (counted n s).get (Key.escrow (toString n)) = s.get (Key.escrow (toString n)) := by
    unfold counted
    rw [Store.get_insert, if_neg]
    intro h
    cases h
  have hentered := outstanding_entered (m.escrow (toString n)) (counted n s) denom
  unfold Vault.opened Depositors.insert
  rw [outstanding_insert_other]
  · rw [hcounted] at hentered
    rw [← hget]
    exact hentered
  · intro name h
    cases h

/-- A new escrow adds its amount, and takes away what an older record under its id counted for. -/
theorem outstanding_opened_le {m : Initiate} {n : Nat} {s : Store}
    (hstored : Stored (Vault.opened m n s) (m.escrow (toString n))) (denom : String) :
    outstanding (Vault.opened m n s) denom ≤
      outstanding s denom + if m.amount.denom = denom then m.amount.amount.val else 0 := by
  have hopened := outstanding_opened m n s denom
  rw [recorded_encode denom hstored.addressable, Initiate.held_escrow] at hopened
  omega

/-- Under a fresh id it adds its amount. -/
theorem outstanding_opened_fresh {m : Initiate} {n : Nat} {s : Store}
    (hstored : Stored (Vault.opened m n s) (m.escrow (toString n)))
    (hfresh : s.get (Key.escrow (toString n)) = none) (denom : String) :
    outstanding (Vault.opened m n s) denom =
      outstanding s denom + if m.amount.denom = denom then m.amount.amount.val else 0 := by
  have hopened := outstanding_opened m n s denom
  rw [recorded_encode denom hstored.addressable, Initiate.held_escrow, hfresh] at hopened
  exact hopened

theorem outstanding_settle {s : Store} {e : Escrow} (he : Stored s e) (status : Status)
    (denom : String) : outstanding (entered (e.settle status) s) denom + e.held denom =
      outstanding s denom + (e.settle status).held denom := by
  have hentered := outstanding_entered (e.settle status) s denom
  have hold : ((s.get (Key.escrow (e.settle status).id)).map (recorded denom)).getD 0 =
      e.held denom := by
    rw [Escrow.settle_id, he.get]
    exact recorded_encode denom he.addressable
  rw [hold, recorded_encode denom (he.settle status).addressable] at hentered
  exact hentered

/-- Canceling a pending escrow frees its amount. -/
theorem outstanding_canceled {s : Store} {e : Escrow} (he : Stored s e)
    (hpending : e.status = .pending) (denom : String) :
    outstanding (entered (e.settle .canceled) s) denom +
        (if e.amount.denom = denom then e.amount.amount.val else 0) = outstanding s denom := by
  have hsettle := outstanding_settle he .canceled denom
  have hbefore : e.held denom = if e.amount.denom = denom then e.amount.amount.val else 0 := by
    simp [Escrow.held, hpending]
  have hafter : (e.settle .canceled).held denom = 0 := by simp [Escrow.held]
  rw [hbefore, hafter] at hsettle
  exact hsettle

/-- Claiming one frees nothing. -/
theorem outstanding_claimed {s : Store} {e : Escrow} (he : Stored s e)
    (hpending : e.status = .pending) (denom : String) :
    outstanding (entered (e.settle .claimed) s) denom = outstanding s denom := by
  have hsettle := outstanding_settle he .claimed denom
  have hsame : (e.settle .claimed).held denom = e.held denom := by
    simp [Escrow.held, hpending]
  rw [hsame] at hsettle
  exact Nat.add_right_cancel hsettle

end Ledger

end Custody
