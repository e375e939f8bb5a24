import Custody.Proofs.Json.Form
import Custody.Proofs.Ledger.Records

/-!
# Sound ledgers

The invariant of a ledger that started out empty: ids count up to `n`, each has its record, its
depositor and an entry in the route index, and nothing else is kept.
-/

namespace Custody

open Store (Key.counter Key.escrow Key.route Key.depositor)
open Store.Key (OfLedger)

/-! ## Depositors -/

theorem Json.decode?_encode (s : String) : decode? String (encode s) = some s :=
  decode?_encode_of_closed (by decide) (fun _ => by trivial) s

namespace Depositors

theorem find_of_get {s : Store} {id : String} {owner : Address}
    (h : s.get (Key.depositor id) = some (Json.encode owner)) :
    find? s id = .ok (some owner) := by
  unfold find?
  rw [h]
  simp only [Json.decode?_encode]

theorem find_congr {s t : Store} {id : String}
    (h : t.get (Key.depositor id) = s.get (Key.depositor id)) : find? t id = find? s id := by
  unfold find?
  rw [h]

theorem find_entered (e : Escrow) (s : Store) (id : String) :
    find? (Ledger.entered e s) id = find? s id :=
  find_congr (Ledger.get_entered_depositor e s id)

theorem find_opened (m : Initiate) (n : Nat) (s : Store) (id : String) :
    find? (Vault.opened m n s) id =
      if id = toString n then .ok (some m.sender) else find? s id := by
  have hget := Ledger.get_opened_depositor m n s id
  by_cases hid : id = toString n
  · rw [if_pos hid] at hget ⊢
    exact find_of_get hget
  · rw [if_neg hid] at hget ⊢
    exact find_congr hget

end Depositors

namespace Ledger

/-! ## An escrow with all that belongs to it -/

/-- On record, with a proper amount, a depositor and an entry for its route. -/
structure Kept (s : Store) (e : Escrow) : Prop extends Stored s e where
  denom : Coin.validDenom e.amount.denom
  positive : 0 < e.amount.amount.val
  depositor : ∃ owner, Depositors.find? s e.id = .ok (some owner)
  routed : (s.get (Key.route e.chain e.amount.denom)).isSome

theorem isSome_entered_route (e : Escrow) (s : Store) {chain denom : String}
    (h : (s.get (Key.route chain denom)).isSome) :
    ((entered e s).get (Key.route chain denom)).isSome := by
  rw [Key.route, List.cons_append, get_entered_index]
  split
  · rfl
  · exact h

theorem isSome_opened_route (m : Initiate) (n : Nat) (s : Store) {chain denom : String}
    (h : (s.get (Key.route chain denom)).isSome) :
    ((Vault.opened m n s).get (Key.route chain denom)).isSome := by
  rw [Key.route, List.cons_append, get_opened_index]
  split
  · rfl
  · exact h

theorem Kept.congr {s t : Store} {e : Escrow} (h : Kept s e) (hsame : Same t s) : Kept t e where
  addressable := h.addressable
  id_ne := h.id_ne
  get := (hsame _ (Store.Key.ofLedger_escrow _)).trans h.get
  denom := h.denom
  positive := h.positive
  depositor := by
    rw [Depositors.find_congr (hsame _ (Store.Key.ofLedger_depositor _))]
    exact h.depositor
  routed := by
    rw [hsame _ (Store.Key.ofLedger_route _ _)]
    exact h.routed

theorem Kept.settle {s : Store} {e : Escrow} (h : Kept s e) (status : Status) :
    Kept (entered (e.settle status) s) (e.settle status) where
  toStored := h.toStored.settle status
  denom := h.denom
  positive := h.positive
  depositor := by
    rw [Depositors.find_entered]
    exact h.depositor
  routed := isSome_entered_route _ s h.routed

theorem Kept.settle_other {s : Store} {e x : Escrow} (hx : Kept s x) (hid : x.id ≠ e.id)
    (status : Status) : Kept (entered (e.settle status) s) x where
  toStored := hx.toStored.settle_other hid status
  denom := hx.denom
  positive := hx.positive
  depositor := by
    rw [Depositors.find_entered]
    exact hx.depositor
  routed := isSome_entered_route _ s hx.routed

/-- Every escrow is still kept after one of them has been settled, though that one has changed. -/
theorem Kept.settled {s : Store} {e x : Escrow} (he : Kept s e) (hx : Kept s x) (status : Status) :
    ∃ y, Kept (entered (e.settle status) s) y ∧ y.id = x.id ∧ y.chain = x.chain ∧
      y.amount = x.amount := by
  by_cases hid : x.id = e.id
  · obtain rfl := he.toStored.eq_of_id hx.toStored hid
    exact ⟨x.settle status, he.settle status, rfl, rfl, rfl⟩
  · exact ⟨x, hx.settle_other hid status, rfl, rfl, rfl⟩

theorem Kept.opened {s : Store} {m : Initiate} {n : Nat} (hcoin : m.amount.check = .ok ())
    (hstored : Stored (Vault.opened m n s) (m.escrow (toString n))) :
    Kept (Vault.opened m n s) (m.escrow (toString n)) where
  toStored := hstored
  denom := (Coin.of_check hcoin).1
  positive := (Coin.of_check hcoin).2
  depositor := ⟨m.sender, (Depositors.find_opened m n s _).trans (if_pos rfl)⟩
  routed := by
    rw [Key.route, List.cons_append, get_opened_index]
    exact if_pos rfl ▸ rfl

theorem Kept.opened_other {s : Store} {m : Initiate} {n : Nat} {x : Escrow} (hx : Kept s x)
    (hid : x.id ≠ toString n) : Kept (Vault.opened m n s) x where
  toStored := hx.toStored.opened_other hid
  denom := hx.denom
  positive := hx.positive
  depositor := by
    rw [Depositors.find_opened, if_neg hid]
    exact hx.depositor
  routed := isSome_opened_route m n s hx.routed

/-! ## The invariant -/

/-- The ledger after `n` ids have been given out. -/
structure Sound (s : Store) (n : Nat) : Prop where
  bound : n < UInt64.size
  counter : s.get Key.counter = if n = 0 then none else some (Bytes.bigEndian n 8)
  records : ∀ name b, s.get (0x01 :: name) = some b →
    ∃ k e, 1 ≤ k ∧ k ≤ n ∧ e.id = toString k ∧ Bytes.ofString e.id = name ∧ Kept s e
  present : ∀ k, 1 ≤ k → k ≤ n → ∃ e, e.id = toString k ∧ Kept s e
  index : ∀ name b, s.get (0x02 :: name) = some b →
    ∃ e, 0x02 :: name = Key.route e.chain e.amount.denom ∧ Bytes.ofString e.id = b ∧ Kept s e

namespace Sound

variable {s t : Store} {n : Nat}

theorem empty : Sound .empty 0 where
  bound := by decide
  counter := rfl
  records name b hget := by cases hget
  present k hlow hhigh := by omega
  index name b hget := by cases hget

theorem wellKeyed (h : Sound s n) : WellKeyed s := by
  intro name b hget
  obtain ⟨k, e, -, -, -, hname, hkept⟩ := h.records name b hget
  exact ⟨e, hkept.toStored, hname⟩

theorem linked (h : Sound s n) : Linked s where
  records := h.wellKeyed
  index name b hget := by
    obtain ⟨e, -, hid, hkept⟩ := h.index name b hget
    exact ⟨e, hkept.toStored, hid⟩

theorem kept (h : Sound s n) {e : Escrow} (he : Stored s e) :
    Kept s e ∧ ∃ k, 1 ≤ k ∧ k ≤ n ∧ e.id = toString k := by
  obtain ⟨k, x, hlow, hhigh, hid, hname, hkept⟩ := h.records _ _ he.get
  obtain rfl := he.eq_of_id hkept.toStored (Bytes.ofString_injective hname)
  exact ⟨hkept, k, hlow, hhigh, hid⟩

theorem lastId (h : Sound s n) : Ledger.lastId s = .ok n := by
  unfold Ledger.lastId
  rw [h.counter]
  by_cases hzero : n = 0
  · rw [if_pos hzero, hzero]
  · rw [if_neg hzero]
    simp only [Bytes.length_bigEndian, if_true]
    rw [Bytes.ofBigEndian_bigEndian, Nat.mod_eq_of_lt (Nat.lt_of_lt_of_le h.bound (by decide))]

/-- The next id is not on record. -/
theorem fresh (h : Sound s n) : s.get (Key.escrow (toString (n + 1))) = none := by
  cases hget : s.get (Key.escrow (toString (n + 1))) with
  | none => rfl
  | some b =>
      obtain ⟨k, e, -, hhigh, hid, hname, -⟩ := h.records _ b hget
      have hsame : toString k = toString (n + 1) := by
        rw [← hid]
        exact Bytes.ofString_injective hname
      have hk := Text.Decimal.toString_inj.1 hsame
      omega

theorem congr (h : Sound s n) (hsame : Same t s) : Sound t n where
  bound := h.bound
  counter := (hsame _ Store.Key.ofLedger_counter).trans h.counter
  records name b hget := by
    rw [hsame _ (Store.Key.ofLedger_record name)] at hget
    obtain ⟨k, e, hlow, hhigh, hid, hname, hkept⟩ := h.records name b hget
    exact ⟨k, e, hlow, hhigh, hid, hname, hkept.congr hsame⟩
  present k hlow hhigh := by
    obtain ⟨e, hid, hkept⟩ := h.present k hlow hhigh
    exact ⟨e, hid, hkept.congr hsame⟩
  index name b hget := by
    rw [hsame _ (Store.Key.ofLedger_index name)] at hget
    obtain ⟨e, hroute, hid, hkept⟩ := h.index name b hget
    exact ⟨e, hroute, hid, hkept.congr hsame⟩

theorem settle (h : Sound s n) {e : Escrow} (he : Stored s e) (status : Status) :
    Sound (entered (e.settle status) s) n := by
  obtain ⟨he, k, hlow, hhigh, hk⟩ := h.kept he
  refine ⟨h.bound, (get_entered_counter _ s).trans h.counter, ?_, ?_, ?_⟩
  · intro name b hget
    rw [get_entered_record] at hget
    split at hget
    · rename_i hname
      exact ⟨k, e.settle status, hlow, hhigh, hk, hname.symm, he.settle status⟩
    · obtain ⟨j, x, hlow, hhigh, hid, hname, hx⟩ := h.records name b hget
      obtain ⟨y, hy, hyid, -, -⟩ := he.settled hx status
      exact ⟨j, y, hlow, hhigh, hyid.trans hid, by rw [hyid]; exact hname, hy⟩
  · intro j hlow hhigh
    obtain ⟨x, hid, hx⟩ := h.present j hlow hhigh
    obtain ⟨y, hy, hyid, -, -⟩ := he.settled hx status
    exact ⟨y, hyid.trans hid, hy⟩
  · intro name b hget
    rw [get_entered_index] at hget
    split at hget
    · rename_i hroute
      exact ⟨e.settle status, hroute, Option.some.inj hget, he.settle status⟩
    · obtain ⟨x, hroute, hid, hx⟩ := h.index name b hget
      obtain ⟨y, hy, hyid, hchain, hamount⟩ := he.settled hx status
      exact ⟨y, by rw [hchain, hamount]; exact hroute, by rw [hyid]; exact hid, hy⟩

theorem opened (h : Sound s n) (hn : n + 1 < UInt64.size) {m : Initiate} (hmemory : m.Addressable)
    (hcoin : m.amount.check = .ok ()) : Sound (Vault.opened m (n + 1) s) (n + 1) := by
  have hstored := Stored.opened s hmemory (Coin.of_check hcoin).1 hn
  have hnew := Kept.opened hcoin hstored
  have hothers : ∀ x, Kept s x → Kept (Vault.opened m (n + 1) s) x := by
    intro x hx
    apply hx.opened_other
    intro hid
    have hget := hx.get
    rw [hid, h.fresh] at hget
    cases hget
  refine ⟨hn, ?_, ?_, ?_, ?_⟩
  · rw [get_opened_counter, if_neg (Nat.succ_ne_zero n)]
  · intro name b hget
    rw [get_opened_record] at hget
    split at hget
    · rename_i hname
      exact ⟨n + 1, _, Nat.le_add_left 1 n, Nat.le_refl _, rfl, hname.symm, hnew⟩
    · obtain ⟨k, x, hlow, hhigh, hid, hname, hx⟩ := h.records name b hget
      exact ⟨k, x, hlow, Nat.le_succ_of_le hhigh, hid, hname, hothers x hx⟩
  · intro k hlow hhigh
    by_cases hlast : k = n + 1
    · rw [hlast]
      exact ⟨_, rfl, hnew⟩
    · obtain ⟨x, hid, hx⟩ := h.present k hlow (by omega)
      exact ⟨x, hid, hothers x hx⟩
  · intro name b hget
    rw [get_opened_index] at hget
    split at hget
    · rename_i hroute
      exact ⟨_, hroute, Option.some.inj hget, hnew⟩
    · obtain ⟨x, hroute, hid, hx⟩ := h.index name b hget
      exact ⟨x, hroute, hid, hothers x hx⟩

end Sound

/-- Some number of ids has been given out. -/
def IsSound (s : Store) : Prop := ∃ n, Sound s n

theorem IsSound.settle {s : Store} (h : IsSound s) {e : Escrow} (he : Stored s e)
    (status : Status) : IsSound (entered (e.settle status) s) := by
  obtain ⟨n, hn⟩ := h
  exact ⟨n, hn.settle he status⟩

theorem IsSound.opened {s : Store} {n : Nat} (h : IsSound s) (hlast : lastId s = .ok n)
    (hn : n + 1 < UInt64.size) {m : Initiate} (hmemory : m.Addressable)
    (hcoin : m.amount.check = .ok ()) : IsSound (Vault.opened m (n + 1) s) := by
  obtain ⟨k, hk⟩ := h
  have hsame : k = n := Except.ok.inj (hk.lastId.symm.trans hlast)
  subst hsame
  exact ⟨k + 1, hk.opened hn hmemory hcoin⟩

theorem IsSound.fresh {s : Store} {n : Nat} (h : IsSound s) (hlast : lastId s = .ok n) :
    s.get (Key.escrow (toString (n + 1))) = none := by
  obtain ⟨k, hk⟩ := h
  have hsame : k = n := Except.ok.inj (hk.lastId.symm.trans hlast)
  subst hsame
  exact hk.fresh

/-- An escrow on record does not have the next id. -/
theorem IsSound.id_ne {s : Store} {n : Nat} (h : IsSound s) (hlast : lastId s = .ok n)
    {e : Escrow} (he : Stored s e) : e.id ≠ toString (n + 1) := by
  intro hid
  have hget := he.get
  rw [hid, h.fresh hlast] at hget
  cases hget

theorem IsSound.congr {s t : Store} (h : IsSound s) (hsame : Same t s) : IsSound t := by
  obtain ⟨n, hn⟩ := h
  exact ⟨n, hn.congr hsame⟩

theorem IsSound.wellKeyed {s : Store} (h : IsSound s) : WellKeyed s := by
  obtain ⟨n, hn⟩ := h
  exact hn.wellKeyed

end Ledger

end Custody
