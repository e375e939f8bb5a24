import Custody.Proofs.Ledger.Frame
import Custody.Proofs.Ledger.Outstanding

/-!
# Listing the records

Where every record is kept under its own id, a scan from some id on yields the escrows that come
after it, one for each record, in the byte order of their ids.
-/

namespace Custody

@[simp] theorem Store.Key.escrow_lt_escrow_iff {id id' : String} :
    escrow id < escrow id' ↔ Bytes.ofString id < Bytes.ofString id' := by
  simp [escrow]

namespace Ledger

/-- The escrow comes after the one with the given id, if one is given. -/
def Follows (start : Option String) (e : Escrow) : Prop :=
  ∀ id ∈ start, Bytes.ofString id < Bytes.ofString e.id

instance (start : Option String) (e : Escrow) : Decidable (Follows start e) :=
  inferInstanceAs (Decidable (∀ id ∈ start, Bytes.ofString id < Bytes.ofString e.id))

@[simp] theorem follows_none (e : Escrow) : Follows none e := by
  intro id hid
  cases hid

@[simp] theorem follows_some {id : String} {e : Escrow} :
    Follows (some id) e ↔ Bytes.ofString id < Bytes.ofString e.id := by
  simp [Follows]

/-- In the byte order of their ids, no two with the same. -/
def Ascending (es : List Escrow) : Prop :=
  es.Pairwise fun a b => Bytes.ofString a.id < Bytes.ofString b.id

/-! ## The records of a store, as escrows -/

/-- What the store holds of an escrow among its records. -/
def entry (e : Escrow) : Bytes × Bytes := (Store.Key.escrow e.id, e.encode)

theorem filterMap_decode {es : List Escrow} (h : ∀ e ∈ es, e.Addressable) :
    (es.map Escrow.encode).filterMap (fun b => (Escrow.decode b).toOption) = es := by
  induction es with
  | nil => rfl
  | cons e es ih =>
      rw [List.map_cons, List.filterMap_cons, Escrow.decode_encode (h e List.mem_cons_self),
        ih fun x hx => h x (List.mem_cons_of_mem e hx)]
      rfl

section WellKeyed

variable {s : Store}

theorem WellKeyed.eq_entry (h : WellKeyed s) {x : Bytes × Bytes} (hx : x ∈ ofFamily .record s) :
    ∃ e, Stored s e ∧ x = entry e := by
  obtain ⟨hmem, hholds⟩ := List.mem_filter.1 hx
  obtain ⟨name, hname⟩ := (Store.Key.Family.holds_iff_start rfl).1 (of_decide_eq_true hholds)
  have hkey : 0x01 :: name = x.1 := hname
  have hget : s.get x.1 = some x.2 := Store.mem_entries_iff.1 hmem
  rw [← hkey] at hget
  obtain ⟨e, hstored, hid⟩ := h name x.2 hget
  rw [← hid, ← Store.Key.escrow, hstored.get] at hget
  refine ⟨e, hstored, Prod.ext ?_ (Option.some.inj hget).symm⟩
  rw [← hkey, ← hid]
  rfl

theorem WellKeyed.exists_entries (h : WellKeyed s) :
    ∃ es : List Escrow, (∀ e ∈ es, Stored s e) ∧ ofFamily .record s = es.map entry := by
  have hall : ∀ l : List (Bytes × Bytes), (∀ x ∈ l, ∃ e, Stored s e ∧ x = entry e) →
      ∃ es : List Escrow, (∀ e ∈ es, Stored s e) ∧ l = es.map entry := by
    intro l
    induction l with
    | nil => exact fun _ => ⟨[], by simp, rfl⟩
    | cons x l ih =>
        intro hl
        obtain ⟨e, he, rfl⟩ := hl x List.mem_cons_self
        obtain ⟨es, hes, rfl⟩ := ih fun y hy => hl y (List.mem_cons_of_mem _ hy)
        exact ⟨e :: es, List.forall_mem_cons.2 ⟨he, hes⟩, rfl⟩
  exact hall _ fun x hx => h.eq_entry hx

/-- The escrows on record are what the records hold, each under its id. -/
theorem WellKeyed.ofFamily_record (h : WellKeyed s) :
    (∀ e ∈ escrows s, Stored s e) ∧ ofFamily .record s = (escrows s).map entry := by
  obtain ⟨es, hstored, hentries⟩ := h.exists_entries
  have hrecords : records s none = es.map Escrow.encode := by
    rw [records_eq_ofFamily, hentries, List.filter_eq_self.2 (by simp), List.map_map]
    rfl
  have hsame : escrows s = es := by
    rw [escrows, hrecords, filterMap_decode fun e he => (hstored e he).addressable]
  rw [hsame]
  exact ⟨hstored, hentries⟩

theorem WellKeyed.mem_escrows_iff (h : WellKeyed s) {e : Escrow} :
    e ∈ escrows s ↔ Stored s e := by
  obtain ⟨hstored, hentries⟩ := h.ofFamily_record
  refine ⟨hstored e, fun he => ?_⟩
  have hmem : entry e ∈ ofFamily .record s :=
    List.mem_filter.2 ⟨Store.mem_entries_iff.2 he.get,
      decide_eq_true (Store.Key.Name.record e.id).holds_key⟩
  rw [hentries] at hmem
  obtain ⟨x, hx, hsame⟩ := List.mem_map.1 hmem
  obtain rfl := he.eq_of_id (hstored x hx) (Store.Key.escrow_inj.1 (congrArg Prod.fst hsame))
  exact hx

theorem WellKeyed.ascending_escrows (h : WellKeyed s) : Ascending (escrows s) := by
  have hsorted : (ofFamily .record s).Pairwise fun a b => a.1 < b.1 := s.sorted.filter _
  rw [h.ofFamily_record.2, List.pairwise_map] at hsorted
  exact hsorted.imp Store.Key.escrow_lt_escrow_iff.1

/-- A scan yields the records of the escrows from the start on. -/
theorem WellKeyed.records (h : WellKeyed s) (start : Option String) :
    records s start = ((escrows s).filter (Follows start)).map Escrow.encode := by
  rw [records_eq_ofFamily, h.ofFamily_record.2, List.filter_map, List.map_map]
  apply congrArg (List.map Escrow.encode)
  apply List.filter_congr
  intro e _
  exact decide_eq_decide.2 (forall₂_congr fun id _ => Store.Key.escrow_lt_escrow_iff)

/-- Decoding stops at the count, and yields the escrows that are kept up to there. -/
theorem first_map_encode (keep : Escrow → Bool) (count : Nat) {es : List Escrow}
    (h : ∀ e ∈ es, e.Addressable) :
    first keep count (es.map Escrow.encode) = .ok ((es.filter keep).take count) := by
  induction es generalizing count with
  | nil => cases count <;> rfl
  | cons e es ih =>
      have hrest := fun x hx => h x (List.mem_cons_of_mem e hx)
      cases count with
      | zero => rfl
      | succ count =>
          rw [List.map_cons, first, Escrow.decode_encode (h e List.mem_cons_self)]
          cases hkeep : keep e with
          | true =>
              rw [List.filter_cons_of_pos hkeep, List.take_succ_cons]
              simp only [bind, Except.bind, if_true, hkeep, ih count hrest]
              rfl
          | false =>
              rw [List.filter_cons_of_neg (by simp [hkeep])]
              simp only [bind, Except.bind, hkeep, Bool.false_eq_true, if_false]
              exact ih (count + 1) hrest

/-- The first escrows that are kept, from the start on. -/
theorem WellKeyed.first (h : WellKeyed s) (keep : Escrow → Bool) (count : Nat)
    (start : Option String) :
    first keep count (Ledger.records s start) =
      .ok ((((escrows s).filter (Follows start)).filter keep).take count) := by
  rw [h.records]
  apply first_map_encode
  intro e he
  exact (h.ofFamily_record.1 e (List.mem_filter.1 he).1).addressable

end WellKeyed

/-! ## Going on after the last escrow seen -/

theorem Ascending.filter {es : List Escrow} (h : Ascending es) (keep : Escrow → Bool) :
    Ascending (es.filter keep) :=
  List.Pairwise.filter keep h

/-- What follows the last escrow of a first part is the rest. -/
theorem Ascending.filter_follows {front rest : List Escrow} {last : Escrow}
    (h : Ascending (front ++ last :: rest)) :
    (front ++ last :: rest).filter (Follows (some last.id)) = rest := by
  obtain ⟨-, hrest, hfront⟩ := List.pairwise_append.1 h
  have hbefore : front.filter (Follows (some last.id)) = [] := by
    rw [List.filter_eq_nil_iff]
    intro e he hfollows
    have hless := hfront e he last List.mem_cons_self
    exact List.lt_asymm hless (follows_some.1 (of_decide_eq_true hfollows))
  have hafter : rest.filter (Follows (some last.id)) = rest := by
    rw [List.filter_eq_self]
    intro e he
    exact decide_eq_true (follows_some.2 ((List.pairwise_cons.1 hrest).1 e he))
  rw [List.filter_append, hbefore, List.filter_cons_of_neg (by simp), hafter, List.nil_append]

/-- A scan that starts after one of the escrows that a scan has found finds those behind it. -/
theorem Ascending.filter_follows_last {es front rest : List Escrow} {last : Escrow}
    {start : Option String} (h : Ascending es)
    (hfound : es.filter (Follows start) = front ++ last :: rest) :
    es.filter (Follows (some last.id)) = rest := by
  have hlast : Follows start last := by
    have hmem : last ∈ es.filter (Follows start) := by simp [hfound]
    exact of_decide_eq_true (List.mem_filter.1 hmem).2
  have hnarrower : es.filter (Follows (some last.id)) =
      (es.filter (Follows start)).filter (Follows (some last.id)) := by
    rw [List.filter_filter]
    apply List.filter_congr
    intro e _
    have himplies : Follows (some last.id) e → Follows start e :=
      fun hfollows id hid => List.lt_trans (hlast id hid) (follows_some.1 hfollows)
    by_cases hfollows : Follows (some last.id) e
    · simp only [hfollows, himplies hfollows, decide_true, Bool.and_self]
    · simp only [hfollows, decide_false, Bool.false_and]
  have hsorted := h.filter (Follows start)
  rw [hnarrower, hfound]
  rw [hfound] at hsorted
  exact hsorted.filter_follows

end Ledger

end Custody
