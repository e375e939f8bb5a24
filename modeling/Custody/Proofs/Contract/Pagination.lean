import Mathlib.Data.List.Basic
import Custody.Bank.Balances
import Custody.Proofs.Contract.Reached
import Custody.Proofs.Ledger.Listing

/-!
# Reading all pages

A client lists the escrows page by page: it asks for those after the last escrow that it has seen,
until a page is empty.
-/

namespace Custody.Contract

open Ledger (Ascending Follows Stored WellKeyed escrows)

/-- How many escrows a page holds at most. -/
def pageSize (limit : Option UInt32) : Nat := min ((limit.map (·.toNat)).getD defaultLimit) maxLimit

/-- The filter lets the escrow through. -/
def Matches (wanted : Option Status) (e : Escrow) : Bool := wanted.all (· == e.status)

/-- The pages that are read from a start on. -/
inductive Pages (env : Env) (s : Store) (status : Option String) (limit : Option UInt32) :
    Option String → List (List Escrow) → Prop
  | done {start : Option String}
      (hpage : query env s (.escrows status start limit) = .ok (.escrows ⟨[]⟩)) :
      Pages env s status limit start []
  | next {start : Option String} {front : List Escrow} {last : Escrow} {pages : List (List Escrow)}
      (hpage : query env s (.escrows status start limit) = .ok (.escrows ⟨front ++ [last]⟩))
      (hrest : Pages env s status limit (some last.id) pages) :
      Pages env s status limit start ((front ++ [last]) :: pages)

variable {env : Env} {s : Store} {status : Option String} {wanted : Option Status}
variable {limit : Option UInt32}

/-! ## One page -/

theorem pageSize_pos (hlimit : limit ≠ some 0) : 0 < pageSize limit := by
  unfold pageSize
  cases limit with
  | none => decide
  | some n =>
      have hn : n.toNat ≠ 0 := by
        intro hzero
        exact hlimit (congrArg some (UInt32.toNat_inj.1 hzero))
      exact Nat.lt_min.2 ⟨Nat.pos_of_ne_zero hn, by decide⟩

theorem query_escrows (h : WellKeyed s) (hstatus : statusFilter status = .ok wanted)
    (start : Option String) :
    query env s (.escrows status start limit) = .ok (.escrows
      ⟨(((escrows s).filter (Matches wanted)).filter (Follows start)).take (pageSize limit)⟩) := by
  have hpage := h.first (Matches wanted) (pageSize limit) start
  have hcomm : ((escrows s).filter (Follows start)).filter (Matches wanted) =
      ((escrows s).filter (Matches wanted)).filter (Follows start) := by
    rw [List.filter_filter, List.filter_filter]
    apply List.filter_congr
    intro e _
    exact Bool.and_comm _ _
  rw [hcomm] at hpage
  have hquery : queryEscrows s status start limit =
      (Ledger.first (Matches wanted) (pageSize limit) (Ledger.records s start)).map .mk := by
    unfold queryEscrows
    rw [hstatus]
    rfl
  change (queryEscrows s status start limit).map Answer.escrows = _
  rw [hquery, hpage]
  rfl

/-! ## All pages -/

/-- A client cannot read other pages. -/
theorem Pages.unique {start : Option String} {pages pages' : List (List Escrow)}
    (h : Pages env s status limit start pages) (h' : Pages env s status limit start pages') :
    pages' = pages := by
  induction h generalizing pages' with
  | done hpage =>
      cases h' with
      | done hpage' => rfl
      | next hpage' hrest' => simp [hpage] at hpage'
  | next hpage hrest ih =>
      cases h' with
      | done hpage' => simp [hpage] at hpage'
      | next hpage' hrest' =>
          rw [hpage] at hpage'
          simp only [Except.ok.injEq, Answer.escrows.injEq, EscrowsAnswer.mk.injEq] at hpage'
          obtain ⟨rfl, hlast⟩ := List.append_inj' hpage' rfl
          obtain rfl := List.singleton_inj.1 hlast
          rw [ih hrest']

/-- Pages cut a list into pieces of a size, of which only the last may be smaller. -/
structure Cuts (size : Nat) (es : List Escrow) (pages : List (List Escrow)) : Prop where
  flatten : pages.flatten = es
  page : ∀ page ∈ pages, page ≠ [] ∧ page.length ≤ size
  full : ∀ page ∈ pages.dropLast, page.length = size

theorem Cuts.nil (size : Nat) : Cuts size [] [] where
  flatten := rfl
  page := by simp
  full := by simp

/-- A first piece before the others: if there are others, it is full. -/
theorem Cuts.cons {size : Nat} {es : List Escrow} {pages : List (List Escrow)} (hsize : 0 < size)
    (hne : es ≠ []) (h : Cuts size (es.drop size) pages) :
    Cuts size es (es.take size :: pages) where
  flatten := by rw [List.flatten_cons, h.flatten, List.take_append_drop]
  page := by
    refine List.forall_mem_cons.2 ⟨⟨?_, List.length_take_le size es⟩, h.page⟩
    rw [Ne, List.take_eq_nil_iff, not_or]
    exact ⟨Nat.ne_of_gt hsize, hne⟩
  full := by
    cases pages with
    | nil => simp
    | cons page pages =>
        rw [List.dropLast_cons_of_ne_nil (List.cons_ne_nil page pages)]
        refine List.forall_mem_cons.2 ⟨?_, h.full⟩
        have hmore : es.drop size ≠ [] := by
          rw [← h.flatten]
          exact List.append_ne_nil_of_left_ne_nil (h.page page List.mem_cons_self).1 _
        apply List.length_take_of_le
        exact Nat.le_of_not_le fun hle => hmore (List.drop_eq_nil_of_le hle)

/-- From any start on, the pages come to an end, and they cut up what follows the start. -/
theorem exists_pages {es : List Escrow} (hes : Ascending es) (hsize : 0 < pageSize limit)
    (hquery : ∀ start, query env s (.escrows status start limit) =
      .ok (.escrows ⟨(es.filter (Follows start)).take (pageSize limit)⟩)) (start : Option String) :
    ∃ pages, Pages env s status limit start pages ∧
      Cuts (pageSize limit) (es.filter (Follows start)) pages := by
  generalize hremaining : (es.filter (Follows start)).length = remaining
  induction remaining using Nat.strongRecOn generalizing start with
  | _ remaining ih =>
      have hpage := hquery start
      generalize hfound : es.filter (Follows start) = found at *
      rcases List.eq_nil_or_concat' (found.take (pageSize limit)) with hempty | ⟨front, last, htake⟩
      · obtain rfl : found = [] := by simpa [Nat.ne_of_gt hsize] using hempty
        rw [List.take_nil] at hpage
        exact ⟨[], .done hpage, .nil _⟩
      · -- The next page starts after the last escrow of this one, where the rest begins.
        have hsplit : found = front ++ last :: found.drop (pageSize limit) := by
          rw [List.append_cons, ← htake, List.take_append_drop]
        have hrest : es.filter (Follows (some last.id)) = found.drop (pageSize limit) :=
          hes.filter_follows_last (hfound.trans hsplit)
        have hfewer : (es.filter (Follows (some last.id))).length < remaining := by
          have hlength := congrArg List.length hsplit
          rw [List.length_append, List.length_cons] at hlength
          rw [hrest, ← hremaining]
          omega
        obtain ⟨pages, hpages, hcuts⟩ := ih _ hfewer (some last.id) rfl
        have hne : found ≠ [] := by
          rw [hsplit]
          simp
        rw [hrest] at hcuts
        refine ⟨found.take (pageSize limit) :: pages, ?_, hcuts.cons hsize hne⟩
        rw [htake] at hpage ⊢
        exact .next hpage hpages

/-- Where records are in order, all that is on record and wanted is read. -/
theorem mem_wanted_iff (h : WellKeyed s) {e : Escrow} :
    e ∈ (escrows s).filter (Matches wanted) ↔
      (∃ name b, s.get (0x01 :: name) = some b ∧ Escrow.decode b = .ok e) ∧
        ∀ x ∈ wanted, e.status = x := by
  have hmatches : Matches wanted e ↔ ∀ x ∈ wanted, e.status = x := by
    cases wanted with
    | none => simp [Matches]
    | some x =>
        rw [Matches, Option.all_some, beq_iff_eq, eq_comm]
        simp only [Option.mem_def, Option.some.injEq, forall_eq']
  have hrecorded : Stored s e ↔ ∃ name b, s.get (0x01 :: name) = some b ∧
      Escrow.decode b = .ok e := by
    constructor
    · intro he
      exact ⟨_, _, he.get, Escrow.decode_encode he.addressable⟩
    · rintro ⟨name, b, hget, hdecode⟩
      obtain ⟨x, hx, rfl⟩ := h name b hget
      obtain rfl : x.encode = b := Option.some.inj (hx.get.symm.trans hget)
      rw [Escrow.decode_encode hx.addressable] at hdecode
      exact Except.ok.inj hdecode ▸ hx
  rw [List.mem_filter, h.mem_escrows_iff, hmatches, hrecorded]

/-- Listing the escrows of a reached store page by page comes to an end in one way only. Together the
pages hold what is on record and has the wanted status, each escrow once, in the byte order of the
ids; no page is larger than asked for, and all but the last are full. -/
theorem pages_complete (env : Env) {s : Store} (hreached : Reached s) {status : Option String}
    {wanted : Option Status} (hstatus : statusFilter status = .ok wanted) {limit : Option UInt32}
    (hlimit : limit ≠ some 0) :
    ∃ pages, (∀ pages', Pages env s status limit none pages' ↔ pages' = pages) ∧
      (∀ e, e ∈ pages.flatten ↔
        (∃ name b, s.get (0x01 :: name) = some b ∧ Escrow.decode b = .ok e) ∧
          ∀ x ∈ wanted, e.status = x) ∧
      pages.flatten.Pairwise (fun a b => Bytes.ofString a.id < Bytes.ofString b.id) ∧
      (∀ page ∈ pages, page ≠ [] ∧ page.length ≤ pageSize limit) ∧
      ∀ page ∈ pages.dropLast, page.length = pageSize limit := by
  have hkeyed := hreached.isSound.wellKeyed
  have hsorted := hkeyed.ascending_escrows.filter (Matches wanted)
  have hquery := @query_escrows env s status wanted limit hkeyed hstatus
  obtain ⟨pages, hpages, hcuts⟩ := exists_pages hsorted (pageSize_pos hlimit) hquery none
  have hall : ((escrows s).filter (Matches wanted)).filter (Follows none) =
      (escrows s).filter (Matches wanted) := List.filter_eq_self.2 (by simp)
  rw [hall] at hcuts
  refine ⟨pages, ?_, ?_, ?_, hcuts.page, hcuts.full⟩
  · intro pages'
    constructor
    · exact hpages.unique
    · rintro rfl
      exact hpages
  · intro e
    rw [hcuts.flatten]
    exact mem_wanted_iff hkeyed
  · rw [hcuts.flatten]
    exact hsorted

/-- Ten escrows, of which the second is claimed: those still pending, in pages of four. -/
theorem pages_complete_ten_escrows :
    let sender := "maany190vqdjtlpcq27xslcveglfmr4ynfwg7g9637yr"
    let m : Initiate := ⟨sender, "dex-1", ⟨"umaany", ⟨100, by decide⟩⟩, "", 0, 0⟩
    let bank := (Balances.empty "maany").set sender ⟨"umaany", ⟨1000, by decide⟩⟩
    let s := (Vault.run {} (List.replicate 10 (.initiate m ⟨by decide, by decide⟩) ++
      [.claim ⟨sender, "2", "dex-1"⟩]) ⟨.empty, bank⟩).store
    let env : Env := ⟨1, "contract"⟩
    let pages := [["1", "10", "3", "4"], ["5", "6", "7", "8"], ["9"]].map (·.map m.escrow)
    Reached s ∧ statusFilter (some "pending") = .ok (some .pending) ∧ some (4 : UInt32) ≠ some 0 ∧
      Pages env s (some "pending") (some 4) none pages ∧
      (∀ e, e ∈ pages.flatten ↔
        (∃ name b, s.get (0x01 :: name) = some b ∧ Escrow.decode b = .ok e) ∧
          ∀ x ∈ some Status.pending, e.status = x) := by
  intro sender m bank s env pages
  have hreached : Reached s := Reached.run {} (v := ⟨.empty, bank⟩) .empty _
  have hstatus : statusFilter (some "pending") = .ok (some .pending) := by decide +kernel
  have hlimit : some (4 : UInt32) ≠ some 0 := by decide
  have hpages : Pages env s (some "pending") (some 4) none pages := by
    have hfirst : query env s (.escrows (some "pending") none (some 4)) =
        .ok (.escrows ⟨["1", "10", "3"].map m.escrow ++ [m.escrow "4"]⟩) := by decide +kernel
    have hsecond : query env s (.escrows (some "pending") (some "4") (some 4)) =
        .ok (.escrows ⟨["5", "6", "7"].map m.escrow ++ [m.escrow "8"]⟩) := by decide +kernel
    have hthird : query env s (.escrows (some "pending") (some "8") (some 4)) =
        .ok (.escrows ⟨[] ++ [m.escrow "9"]⟩) := by decide +kernel
    have hend : query env s (.escrows (some "pending") (some "9") (some 4)) =
        .ok (.escrows ⟨[]⟩) := by decide +kernel
    exact .next hfirst (.next hsecond (.next hthird (.done hend)))
  obtain ⟨pages', hunique, hmem, -, -, -⟩ := pages_complete env hreached hstatus hlimit
  obtain rfl := (hunique pages).1 hpages
  exact ⟨hreached, hstatus, hlimit, hpages, hmem⟩

end Custody.Contract
