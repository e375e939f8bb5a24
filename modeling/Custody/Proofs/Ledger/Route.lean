import Custody.Proofs.Ledger.Sound

/-!
# What a route leads to

In a ledger that is in order, an entry of the route index stands under the route of the very escrow
that it leads to. A write points the route of one escrow at it and leaves all other routes alone.
-/

namespace Custody

open Store (Key.escrow Key.route)

namespace Escrow

/-- The escrow is for the chain and of the denomination. -/
def OnRoute (e : Escrow) (chain denom : String) : Prop := e.chain = chain ∧ e.amount.denom = denom

instance (e : Escrow) (chain denom : String) : Decidable (e.OnRoute chain denom) :=
  inferInstanceAs (Decidable (_ ∧ _))

end Escrow

namespace Ledger

/-- On record, and what its route leads to. -/
structure Routed (s : Store) (e : Escrow) : Prop extends Stored s e where
  index : s.get (Key.route e.chain e.amount.denom) = some (Bytes.ofString e.id)

theorem IsSound.kept {s : Store} (h : IsSound s) {e : Escrow} (he : Stored s e) : Kept s e := by
  obtain ⟨n, hn⟩ := h
  exact (hn.kept he).1

/-- A key of the index is that of the route of the escrow that it leads to. -/
theorem IsSound.route_eq {s : Store} (h : IsSound s) {e : Escrow} (he : Stored s e)
    {chain denom : String} (hindex : s.get (Key.route chain denom) = some (Bytes.ofString e.id)) :
    Key.route chain denom = Key.route e.chain e.amount.denom := by
  obtain ⟨n, hn⟩ := h
  obtain ⟨x, hroute, hid, hx⟩ := hn.index _ _ hindex
  obtain rfl := he.eq_of_id hx.toStored (Bytes.ofString_injective hid)
  exact hroute

theorem IsSound.routed {s : Store} (h : IsSound s) {e : Escrow} (he : Stored s e)
    {chain denom : String} (hindex : s.get (Key.route chain denom) = some (Bytes.ofString e.id)) :
    Routed s e where
  toStored := he
  index := by
    rw [← h.route_eq he hindex]
    exact hindex

theorem Routed.eq {s : Store} {e x : Escrow} (he : Routed s e) (hx : Routed s x)
    (hroute : x.OnRoute e.chain e.amount.denom) : x = e := by
  have hindex := hx.index
  rw [hroute.1, hroute.2, he.index] at hindex
  exact he.eq_of_id hx.toStored (Bytes.ofString_injective (Option.some.inj hindex)).symm

theorem Stored.routed_settle {s : Store} {e : Escrow} (he : Stored s e) (status : Status) :
    Routed (entered (e.settle status) s) (e.settle status) where
  toStored := he.settle status
  index := (get_entered_index _ s _).trans (if_pos rfl)

/-- Settling an escrow leaves the entries of other routes as they are. -/
theorem get_settled_route_other (s : Store) {e : Escrow} {chain denom : String}
    (hvalid : Coin.validDenom e.amount.denom) (hdenom : Coin.validDenom denom)
    (hother : ¬ e.OnRoute chain denom) (status : Status) :
    (entered (e.settle status) s).get (Key.route chain denom) = s.get (Key.route chain denom) := by
  rw [Key.route, List.cons_append, get_entered_index, if_neg]
  intro hkey
  obtain ⟨hchain, hname⟩ := (Store.Key.route_inj hdenom hvalid).1 hkey
  exact hother ⟨hchain.symm, hname.symm⟩

theorem byId_settled_other (s : Store) {e : Escrow} {id : String} (hid : id ≠ e.id)
    (status : Status) : byId (entered (e.settle status) s) id = byId s id := by
  unfold byId raw
  rw [get_entered_escrow, Escrow.settle_id, if_neg hid]

/-- Settling an escrow does not show on other routes. -/
theorem IsSound.byRoute_settled_other {s : Store} (h : IsSound s) {e : Escrow} (he : Stored s e)
    {chain denom : String} (hdenom : Coin.validDenom denom) (hother : ¬ e.OnRoute chain denom)
    (status : Status) :
    byRoute (entered (e.settle status) s) chain denom = byRoute s chain denom := by
  have hvalid := (h.kept he).denom
  unfold byRoute
  rw [get_settled_route_other s hvalid hdenom hother]
  cases hindex : s.get (Key.route chain denom) with
  | none => rfl
  | some b =>
      obtain ⟨n, hn⟩ := h
      obtain ⟨x, hroute, hid, hx⟩ := hn.index _ _ hindex
      have hne : x.id ≠ e.id := by
        intro hsame
        obtain rfl := he.eq_of_id hx.toStored hsame
        obtain ⟨hchain, hname⟩ := (Store.Key.route_inj hdenom hvalid).1 hroute
        exact hother ⟨hchain.symm, hname.symm⟩
      rw [← hid]
      simp only [Text.Utf8.decode_ofString]
      exact byId_settled_other s hne status

/-- Two escrows on different routes can be written down in either order. -/
theorem entered_comm {e x : Escrow} (hid : e.id ≠ x.id)
    (hroute : Key.route e.chain e.amount.denom ≠ Key.route x.chain x.amount.denom) (s : Store) :
    entered x (entered e s) = entered e (entered x s) := by
  have hcross : ∀ (id chain denom : String), Key.route chain denom ≠ Key.escrow id := by
    intro id chain denom h
    exact absurd (List.cons.inj h).1 (by decide)
  have hrecords : Key.escrow e.id ≠ Key.escrow x.id := mt Store.Key.escrow_inj.1 hid
  unfold entered
  rw [Store.insert_comm (hcross x.id e.chain e.amount.denom), Store.insert_comm hrecords,
    Store.insert_comm hroute, Store.insert_comm (hcross e.id x.chain x.amount.denom).symm]

/-- Opening an escrow leaves the entries of other routes as they are. -/
theorem get_opened_route_other (s : Store) {m : Initiate} {n : Nat} {chain denom : String}
    (hvalid : Coin.validDenom m.amount.denom) (hdenom : Coin.validDenom denom)
    (hother : ¬ (m.escrow (toString n)).OnRoute chain denom) :
    (Vault.opened m n s).get (Key.route chain denom) = s.get (Key.route chain denom) := by
  rw [Key.route, List.cons_append, get_opened_index, if_neg]
  intro hkey
  obtain ⟨hchain, hname⟩ := (Store.Key.route_inj hdenom hvalid).1 hkey
  exact hother ⟨hchain.symm, hname.symm⟩

theorem byId_opened_other (s : Store) {m : Initiate} {n : Nat} {id : String}
    (hid : id ≠ toString n) : byId (Vault.opened m n s) id = byId s id := by
  unfold byId raw
  rw [get_opened_escrow, if_neg hid]

/-- Opening an escrow does not show on other routes. -/
theorem IsSound.byRoute_opened_other {s : Store} (h : IsSound s) {n : Nat}
    (hlast : lastId s = .ok n) {m : Initiate} {chain denom : String}
    (hvalid : Coin.validDenom m.amount.denom) (hdenom : Coin.validDenom denom)
    (hother : ¬ (m.escrow (toString (n + 1))).OnRoute chain denom) :
    byRoute (Vault.opened m (n + 1) s) chain denom = byRoute s chain denom := by
  unfold byRoute
  rw [get_opened_route_other s hvalid hdenom hother]
  cases hindex : s.get (Key.route chain denom) with
  | none => rfl
  | some b =>
      obtain ⟨k, hk⟩ := h
      obtain ⟨x, -, hid, hx⟩ := hk.index _ _ hindex
      rw [← hid]
      simp only [Text.Utf8.decode_ofString]
      exact byId_opened_other s (IsSound.id_ne ⟨k, hk⟩ hlast hx.toStored)

theorem Routed.settle_other {s : Store} (h : IsSound s) {e x : Escrow} (he : Routed s e)
    (hx : Stored s x) (hroute : ¬ x.OnRoute e.chain e.amount.denom) (status : Status) :
    Routed (entered (x.settle status) s) e where
  toStored := by
    apply he.toStored.settle_other
    intro hid
    obtain rfl := hx.eq_of_id he.toStored hid
    exact hroute ⟨rfl, rfl⟩
  index := by
    rw [get_settled_route_other s (h.kept hx).denom (h.kept he.toStored).denom hroute]
    exact he.index

theorem Routed.opened_other {s : Store} (h : IsSound s) {n : Nat} (hlast : lastId s = .ok n)
    {e : Escrow} (he : Routed s e) {m : Initiate} (hdenom : Coin.validDenom m.amount.denom)
    (hroute : ¬ (m.escrow (toString (n + 1))).OnRoute e.chain e.amount.denom) :
    Routed (Vault.opened m (n + 1) s) e where
  toStored := he.toStored.opened_other (h.id_ne hlast he.toStored)
  index := by
    rw [get_opened_route_other s hdenom (h.kept he.toStored).denom hroute]
    exact he.index

end Ledger

end Custody
