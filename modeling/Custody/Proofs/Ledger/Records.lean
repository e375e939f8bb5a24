import Custody.Proofs.Escrow.Codec
import Custody.Proofs.Escrow.Outcome
import Custody.Proofs.Store.Key
import Custody.Proofs.Store.Prefix
import Custody.Proofs.Store.Total

/-!
# The records of the ledger

What the writes of an operation do to each family of keys, and what a look-up yields in a store
whose records are all written forms of escrows under their own ids.
-/

namespace Custody

open Store (Key.counter Key.escrow Key.route Key.depositor)
open Store.Key (OfLedger)

namespace Store

/-- The stores agree on all keys of a kind. -/
def AgreeOn (kind : Bytes → Prop) (s t : Store) : Prop := ∀ key, kind key → s.get key = t.get key

namespace AgreeOn

variable {kind : Bytes → Prop} {s t u : Store} {key : Bytes}

theorem refl (s : Store) : AgreeOn kind s s := fun _ _ => rfl

theorem trans (h : AgreeOn kind s t) (h' : AgreeOn kind t u) : AgreeOn kind s u :=
  fun key hkey => (h key hkey).trans (h' key hkey)

theorem insert (hkey : ¬ kind key) (s : Store) (value : Bytes) :
    AgreeOn kind (s.insert key value) s := by
  intro k hk
  have hne : k ≠ key := by
    rintro rfl
    exact hkey hk
  rw [Store.get_insert, if_neg hne]

theorem erase (hkey : ¬ kind key) (s : Store) : AgreeOn kind (s.erase key) s := by
  intro k hk
  have hne : k ≠ key := by
    rintro rfl
    exact hkey hk
  rw [Store.get_erase, if_neg hne]

end AgreeOn

end Store

/-- The texts that a message puts into a record are texts in memory. -/
structure Initiate.Addressable (m : Initiate) : Prop where
  chain : Text.Addressable m.chain
  recipient : Text.Addressable m.recipient

namespace Ledger

/-! ## Writes outside the ledger -/

/-- The stores agree on all that escrows are kept under. -/
def Same (s t : Store) : Prop := ∀ key, OfLedger key → s.get key = t.get key

theorem Same.refl (s : Store) : Same s s := Store.AgreeOn.refl s

theorem Same.trans {s t u : Store} (h : Same s t) (h' : Same t u) : Same s u :=
  Store.AgreeOn.trans h h'

theorem Same.insert {key : Bytes} (hkey : ¬ OfLedger key) (s : Store) (value : Bytes) :
    Same (s.insert key value) s :=
  Store.AgreeOn.insert hkey s value

theorem Same.erase {key : Bytes} (hkey : ¬ OfLedger key) (s : Store) : Same (s.erase key) s :=
  Store.AgreeOn.erase hkey s

theorem mem_records_iff {key : Bytes} :
    ¬ key < [0x01] ∧ key < Store.Key.escrowEnd ↔ ∃ name, key = 0x01 :: name := by
  have hbounded : Store.Key.Bounded [0x01] := by decide
  refine (Store.Key.mem_startEnd_iff hbounded).trans ⟨?_, ?_⟩
  · rintro ⟨name, rfl⟩
    exact ⟨name, rfl⟩
  · rintro ⟨name, rfl⟩
    exact ⟨name, rfl⟩

theorem records_eq (s : Store) :
    records s none = (s.range [0x01] Store.Key.escrowEnd).map fun e => e.2 := rfl

theorem Same.records {s t : Store} (h : Same s t) : records s none = records t none := by
  rw [records_eq, records_eq, Store.range_congr]
  intro key hlow hhigh
  obtain ⟨name, rfl⟩ := mem_records_iff.1 ⟨hlow, hhigh⟩
  exact h _ (Store.Key.ofLedger_record name)

/-! ## Writes of the ledger -/

section Entered

variable (e : Escrow) (s : Store)

theorem get_entered_counter : (entered e s).get Key.counter = s.get Key.counter := by
  simp [entered, Store.get_insert, Key.counter, Key.escrow, Key.route]

theorem get_entered_depositor (id : String) :
    (entered e s).get (Key.depositor id) = s.get (Key.depositor id) := by
  simp [entered, Store.get_insert, Store.Key.depositor_eq, Key.escrow, Key.route]

theorem get_entered_record (name : Bytes) : (entered e s).get (0x01 :: name) =
    if name = Bytes.ofString e.id then some e.encode else s.get (0x01 :: name) := by
  simp [entered, Store.get_insert, Key.escrow, Key.route]

theorem get_entered_escrow (id : String) : (entered e s).get (Key.escrow id) =
    if id = e.id then some e.encode else s.get (Key.escrow id) := by
  simp only [Key.escrow, get_entered_record, Bytes.ofString_inj]

theorem get_entered_index (name : Bytes) : (entered e s).get (0x02 :: name) =
    if 0x02 :: name = Key.route e.chain e.amount.denom then some (Bytes.ofString e.id)
    else s.get (0x02 :: name) := by
  simp [entered, Store.get_insert, Key.escrow]

end Entered

section Opened

variable (m : Initiate) (n : Nat) (s : Store)

theorem get_opened_counter :
    (Vault.opened m n s).get Key.counter = some (Bytes.bigEndian n 8) := by
  simp [Vault.opened, Depositors.insert, entered, counted, Store.get_insert,
    Store.Key.depositor_eq, Key.counter, Key.escrow, Key.route]

theorem get_opened_depositor (id : String) : (Vault.opened m n s).get (Key.depositor id) =
    if id = toString n then some (Json.encode m.sender) else s.get (Key.depositor id) := by
  rw [Vault.opened, Depositors.insert, Store.get_insert, get_entered_depositor, counted,
    Store.get_insert]
  simp only [Store.Key.depositor_inj]
  simp [Store.Key.depositor_eq, Key.counter]

theorem get_opened_record (name : Bytes) : (Vault.opened m n s).get (0x01 :: name) =
    if name = Bytes.ofString (toString n) then some (m.escrow (toString n)).encode
    else s.get (0x01 :: name) := by
  rw [Vault.opened, Depositors.insert, Store.get_insert, get_entered_record, counted,
    Store.get_insert]
  simp [Store.Key.depositor_eq, Key.counter, Initiate.escrow]

theorem get_opened_escrow (id : String) : (Vault.opened m n s).get (Key.escrow id) =
    if id = toString n then some (m.escrow (toString n)).encode else s.get (Key.escrow id) := by
  simp only [Key.escrow, get_opened_record, Bytes.ofString_inj]

theorem get_opened_index (name : Bytes) : (Vault.opened m n s).get (0x02 :: name) =
    if 0x02 :: name = Key.route m.chain m.amount.denom then some (Bytes.ofString (toString n))
    else s.get (0x02 :: name) := by
  rw [Vault.opened, Depositors.insert, Store.get_insert, get_entered_index, counted,
    Store.get_insert]
  simp [Store.Key.depositor_eq, Key.counter, Initiate.escrow]

end Opened

/-! ## Look-ups -/

/-- The escrow is on record under its id. -/
structure Stored (s : Store) (e : Escrow) : Prop where
  addressable : e.Addressable
  id_ne : e.id ≠ ""
  get : s.get (Key.escrow e.id) = some e.encode

theorem Stored.byId {s : Store} {e : Escrow} (h : Stored s e) : byId s e.id = .ok (some e) := by
  unfold Ledger.byId raw
  rw [h.get]
  simp only [Escrow.decode_encode h.addressable]
  rfl

theorem Stored.byRoute {s : Store} {e : Escrow} (h : Stored s e) {chain denom : String}
    (hindex : s.get (Key.route chain denom) = some (Bytes.ofString e.id)) :
    byRoute s chain denom = .ok (some e) := by
  unfold Ledger.byRoute
  rw [hindex]
  simp only [Text.Utf8.decode_ofString]
  exact h.byId

theorem Stored.eq_of_id {s : Store} {e x : Escrow} (he : Stored s e) (hx : Stored s x)
    (hid : x.id = e.id) : x = e := by
  have hbytes : x.encode = e.encode := by
    have hget := hx.get
    rw [hid, he.get] at hget
    exact (Option.some.inj hget).symm
  have hdecode := Escrow.decode_encode hx.addressable
  rw [hbytes, Escrow.decode_encode he.addressable] at hdecode
  exact (Except.ok.inj hdecode).symm

/-- Every record is the written form of an escrow under its own id. -/
def WellKeyed (s : Store) : Prop :=
  ∀ name b, s.get (0x01 :: name) = some b → ∃ e, Stored s e ∧ Bytes.ofString e.id = name

theorem WellKeyed.raw {s : Store} (h : WellKeyed s) {id : String} {b : Bytes}
    (hraw : raw s id = some b) : ∃ e, Stored s e ∧ e.id = id ∧ e.encode = b := by
  obtain ⟨e, hstored, hname⟩ := h (Bytes.ofString id) b hraw
  have hid : e.id = id := Bytes.ofString_injective hname
  refine ⟨e, hstored, hid, ?_⟩
  have hget := hstored.get
  rw [hid] at hget
  exact Option.some.inj (hget.symm.trans hraw)

theorem WellKeyed.byId {s : Store} (h : WellKeyed s) (id : String) :
    Ledger.byId s id = .ok none ∨ ∃ e, Ledger.byId s id = .ok (some e) ∧ Stored s e ∧ e.id = id := by
  cases hraw : Ledger.raw s id with
  | none =>
      left
      unfold Ledger.byId
      rw [hraw]
  | some b =>
      obtain ⟨e, hstored, hid, -⟩ := h.raw hraw
      right
      refine ⟨e, ?_, hstored, hid⟩
      rw [← hid]
      exact hstored.byId

theorem WellKeyed.byId_some {s : Store} (h : WellKeyed s) {id : String} {e : Escrow}
    (hfound : Ledger.byId s id = .ok (some e)) : Stored s e ∧ e.id = id := by
  rcases h.byId id with hnone | ⟨x, hx, hstored, hid⟩
  · rw [hnone] at hfound
    cases hfound
  · rw [hx] at hfound
    cases hfound
    exact ⟨hstored, hid⟩

/-- What a route leads to is the escrow whose id stands under the route. -/
theorem WellKeyed.byRoute_some {s : Store} (h : WellKeyed s) {chain denom : String} {e : Escrow}
    (hfound : byRoute s chain denom = .ok (some e)) :
    Stored s e ∧ s.get (Key.route chain denom) = some (Bytes.ofString e.id) := by
  unfold byRoute at hfound
  cases hroute : s.get (Key.route chain denom) with
  | none =>
      rw [hroute] at hfound
      cases hfound
  | some b =>
      rw [hroute] at hfound
      simp only [Text.Utf8.decode] at hfound
      cases hid : b.toString? with
      | none =>
          rw [hid] at hfound
          cases hfound
      | some id =>
          rw [hid] at hfound
          obtain ⟨hstored, rfl⟩ := h.byId_some hfound
          exact ⟨hstored, by rw [Bytes.ofString_of_toString? hid]⟩

theorem WellKeyed.pendingOnRoute {s : Store} (h : WellKeyed s) {chain denom : String} {e : Escrow}
    (hfound : Vault.pendingOnRoute s chain denom = .ok e) :
    Stored s e ∧ e.status = .pending ∧
      s.get (Key.route chain denom) = some (Bytes.ofString e.id) := by
  obtain ⟨hroute, hpending⟩ := Vault.pendingOnRoute_eq_ok hfound
  obtain ⟨hstored, hindex⟩ := h.byRoute_some hroute
  exact ⟨hstored, hpending, hindex⟩

/-! ## Records before and after a write -/

theorem Stored.settle {s : Store} {e : Escrow} (h : Stored s e) (status : Status) :
    Stored (entered (e.settle status) s) (e.settle status) where
  addressable := ⟨h.addressable.id, h.addressable.chain, h.addressable.denom,
    h.addressable.recipient⟩
  id_ne := h.id_ne
  get := by rw [get_entered_escrow, if_pos rfl]

theorem Stored.opened (s : Store) {m : Initiate} {n : Nat} (hmemory : m.Addressable)
    (hdenom : Coin.validDenom m.amount.denom) (hn : n < UInt64.size) :
    Stored (Vault.opened m n s) (m.escrow (toString n)) where
  addressable := ⟨Text.Decimal.addressable_toString (Nat.lt_trans hn (by decide)), hmemory.chain,
    Coin.addressable_of_validDenom hdenom, hmemory.recipient⟩
  id_ne := Text.Decimal.toString_ne_empty n
  get := (get_opened_escrow m n s _).trans (if_pos rfl)

theorem Stored.settle_other {s : Store} {e x : Escrow} (hx : Stored s x) (hid : x.id ≠ e.id)
    (status : Status) : Stored (entered (e.settle status) s) x where
  addressable := hx.addressable
  id_ne := hx.id_ne
  get := by
    rw [get_entered_escrow, Escrow.settle_id, if_neg hid]
    exact hx.get

theorem Stored.opened_other {s : Store} {m : Initiate} {n : Nat} {x : Escrow} (hx : Stored s x)
    (hid : x.id ≠ toString n) : Stored (Vault.opened m n s) x where
  addressable := hx.addressable
  id_ne := hx.id_ne
  get := by
    rw [get_opened_escrow, if_neg hid]
    exact hx.get

/-- What is on record after a settlement is the settled escrow or was there before. -/
theorem Stored.of_settle {s : Store} {e x : Escrow} {status : Status} (he : Stored s e)
    (hx : Stored (entered (e.settle status) s) x) :
    x = e.settle status ∨ x.id ≠ e.id ∧ Stored s x := by
  by_cases hid : x.id = e.id
  · exact .inl ((he.settle status).eq_of_id hx hid)
  · have hget := hx.get
    rw [get_entered_escrow, Escrow.settle_id, if_neg hid] at hget
    exact .inr ⟨hid, hx.addressable, hx.id_ne, hget⟩

/-- What is on record after an opening is the new escrow or was there before. -/
theorem Stored.of_opened {s : Store} {m : Initiate} {n : Nat} {x : Escrow}
    (hnew : Stored (Vault.opened m n s) (m.escrow (toString n)))
    (hx : Stored (Vault.opened m n s) x) :
    x = m.escrow (toString n) ∨ x.id ≠ toString n ∧ Stored s x := by
  by_cases hid : x.id = toString n
  · exact .inl (hnew.eq_of_id hx hid)
  · have hget := hx.get
    rw [get_opened_escrow, if_neg hid] at hget
    exact .inr ⟨hid, hx.addressable, hx.id_ne, hget⟩

theorem WellKeyed.congr {s t : Store} (h : WellKeyed s) (hsame : Same t s) : WellKeyed t := by
  intro name b hget
  rw [hsame _ (Store.Key.ofLedger_record name)] at hget
  obtain ⟨e, hstored, hname⟩ := h name b hget
  refine ⟨e, ⟨hstored.addressable, hstored.id_ne, ?_⟩, hname⟩
  rw [hsame _ (Store.Key.ofLedger_escrow _)]
  exact hstored.get

/-- A record replaced by one of the same kind, the others left alone. -/
theorem WellKeyed.write {s t : Store} {e : Escrow} (h : WellKeyed s) (he : Stored t e)
    (hothers : ∀ name, name ≠ Bytes.ofString e.id → t.get (0x01 :: name) = s.get (0x01 :: name)) :
    WellKeyed t := by
  intro name b hget
  by_cases hname : name = Bytes.ofString e.id
  · exact ⟨e, he, hname.symm⟩
  · rw [hothers name hname] at hget
    obtain ⟨x, hx, hid⟩ := h name b hget
    refine ⟨x, ⟨hx.addressable, hx.id_ne, ?_⟩, hid⟩
    rw [Key.escrow, hid, hothers name hname, ← hid]
    exact hx.get

theorem WellKeyed.settle {s : Store} {e : Escrow} (h : WellKeyed s) (he : Stored s e)
    (status : Status) : WellKeyed (entered (e.settle status) s) := by
  apply h.write (he.settle status)
  intro name hname
  rw [get_entered_record, if_neg hname]

theorem WellKeyed.opened {s : Store} {m : Initiate} {n : Nat} (h : WellKeyed s)
    (hstored : Stored (Vault.opened m n s) (m.escrow (toString n))) :
    WellKeyed (Vault.opened m n s) := by
  apply h.write hstored
  intro name hname
  exact (get_opened_record m n s name).trans (if_neg hname)

theorem wellKeyed_of_records {s : Store} (h : records s none = []) : WellKeyed s := by
  intro name b hget
  have hmem : (0x01 :: name, b) ∈ s.range [0x01] Store.Key.escrowEnd :=
    Store.mem_range_iff.2 ⟨hget, mem_records_iff.2 ⟨name, rfl⟩⟩
  rw [List.map_eq_nil_iff.1 h] at hmem
  cases hmem

/-! ## The route index -/

/-- Records are kept under their own ids, and every entry of the route index leads to one. -/
structure Linked (s : Store) : Prop where
  records : WellKeyed s
  index : ∀ name b, s.get (0x02 :: name) = some b → ∃ e, Stored s e ∧ Bytes.ofString e.id = b

namespace Linked

variable {s t : Store}

theorem empty : Linked .empty where
  records name b hget := by cases hget
  index name b hget := by cases hget

/-- One record is written, and entries of the index are pointed at nothing else. -/
theorem write {e : Escrow} (h : Linked s) (he : Stored t e)
    (hothers : ∀ name, name ≠ Bytes.ofString e.id → t.get (0x01 :: name) = s.get (0x01 :: name))
    (hindex : ∀ name, t.get (0x02 :: name) = some (Bytes.ofString e.id) ∨
      t.get (0x02 :: name) = s.get (0x02 :: name)) : Linked t where
  records := h.records.write he hothers
  index name b hget := by
    rcases hindex name with hnew | hold
    · exact ⟨e, he, Option.some.inj (hnew.symm.trans hget)⟩
    · obtain ⟨x, hx, hid⟩ := h.index name b (hold.symm.trans hget)
      -- An old entry may lead to the very record that is written over; it leads to the new one then.
      by_cases hsame : x.id = e.id
      · exact ⟨e, he, by rw [← hsame, hid]⟩
      · refine ⟨x, ⟨hx.addressable, hx.id_ne, ?_⟩, hid⟩
        rw [Key.escrow, hothers _ (Bytes.ofString_inj.not.2 hsame)]
        exact hx.get

theorem entered (h : Linked s) {e : Escrow} (hmemory : e.Addressable) (hid : e.id ≠ "") :
    Linked (entered e s) := by
  have hstored : Stored (Ledger.entered e s) e :=
    ⟨hmemory, hid, (get_entered_escrow e s e.id).trans (if_pos rfl)⟩
  apply h.write hstored
  · intro name hname
    rw [get_entered_record, if_neg hname]
  · intro name
    rw [get_entered_index]
    split
    · exact .inl rfl
    · exact .inr rfl

theorem opened (h : Linked s) {m : Initiate} {n : Nat}
    (hstored : Stored (Vault.opened m n s) (m.escrow (toString n))) :
    Linked (Vault.opened m n s) := by
  apply h.write hstored
  · intro name hname
    exact (get_opened_record m n s name).trans (if_neg hname)
  · intro name
    rw [get_opened_index]
    split
    · exact .inl rfl
    · exact .inr rfl

/-- Looking up a route finds no entry, or the escrow that the entry leads to. -/
theorem byRoute (h : Linked s) (chain denom : String) :
    s.get (Key.route chain denom) = none ∧ Ledger.byRoute s chain denom = .ok none ∨
      ∃ e, Stored s e ∧ s.get (Key.route chain denom) = some (Bytes.ofString e.id) ∧
        Ledger.byRoute s chain denom = .ok (some e) := by
  cases hget : s.get (Key.route chain denom) with
  | none =>
      left
      unfold Ledger.byRoute
      rw [hget]
      exact ⟨rfl, rfl⟩
  | some b =>
      obtain ⟨e, hstored, rfl⟩ := h.index _ b hget
      exact .inr ⟨e, hstored, rfl, hstored.byRoute hget⟩

end Linked

end Ledger

end Custody
