import Custody.Proofs.Contract.History

/-!
# Refunds

An escrow is refunded at most once, by a cancellation, to the one who opened it, and never after it
has been claimed.
-/

namespace Custody.Contract

open Ledger (IsSound Stored)

/-! ## What a receipt says of an escrow -/

/-- The call returned a transfer for the escrow with this id. -/
def Receipt.Pays (r : Receipt) (id : String) : Prop :=
  r.response.transfers ≠ [] ∧ ("escrow_id", id) ∈ r.response.attributes

/-- The call was a command to initiate, and the escrow came into being with it. -/
structure Receipt.Opens (r : Receipt) (e : Escrow) : Prop where
  command : ∃ recipient expiryHeight expiryTime,
    r.command = .initiate e.chain e.amount recipient expiryHeight expiryTime
  before : Ledger.byId r.before e.id = .ok none
  after : Ledger.byId r.after e.id = .ok (some e)

/-- The call found the escrow pending, left it canceled, and returned one transfer: its coin, to the
caller. -/
structure Receipt.Refunds (r : Receipt) (e : Escrow) : Prop where
  pending : e.status = .pending
  before : Ledger.byId r.before e.id = .ok (some e)
  after : Ledger.byId r.after e.id = .ok (some (e.settle .canceled))
  transfers : r.response.transfers = [⟨r.call.sender, [e.amount]⟩]
  pays : r.Pays e.id

/-! ## What the receipts so far say of the store -/

/-- Each escrow on record was opened by its depositor, those paid for are canceled, and those
reported as claimed are claimed. -/
structure Chronicle (past : List Receipt) (s : Store) : Prop where
  sound : IsSound s
  opened : ∀ e, Stored s e → ∃ r ∈ past, r.Opens (e.settle .pending) ∧
    Depositors.find? s e.id = .ok (some r.call.sender)
  paid : ∀ r ∈ past, ∀ id, r.Pays id → ∃ e, Stored s e ∧ e.id = id ∧ e.status = .canceled
  claimed : ∀ r ∈ past, ∀ id chain, r.command = .claim id chain →
    ∃ e, Stored s e ∧ e.id = id ∧ e.status = .claimed

section Effects

variable {call : Call} {s t : Store} {command : Command} {response : Response}

/-- What is canceled or claimed stays as it is. -/
theorem Effect.stored (heffect : Effect call s command response t) (h : IsSound s) {x : Escrow}
    (hx : Stored s x) (hdone : x.status ≠ .pending) : Stored t x := by
  have hother : ∀ e, Stored s e → e.status = .pending → x.id ≠ e.id := by
    intro e he hpending hid
    obtain rfl := he.eq_of_id hx hid
    exact hdone hpending
  cases heffect with
  | opened hcoin hlast hn hfunds => exact hx.opened_other (h.id_ne hlast hx)
  | refunded hfunds hfound howner hid =>
      obtain ⟨he, hpending, -⟩ := h.wellKeyed.pendingOnRoute hfound
      exact hx.settle_other (hother _ he hpending) .canceled
  | claimed hfunds hfound hpending hid =>
      obtain ⟨he, -⟩ := h.wellKeyed.byId_some hfound
      exact hx.settle_other (hother _ he hpending) .claimed

/-- A transfer is for an escrow that was pending before, and is canceled after. -/
theorem Effect.stored_of_transfer (heffect : Effect call s command response t) (h : IsSound s)
    {id : String} (htransfers : response.transfers ≠ [])
    (hnamed : ("escrow_id", id) ∈ response.attributes) :
    ∃ e, Stored s e ∧ e.id = id ∧ e.status = .pending ∧ Stored t (e.settle .canceled) := by
  cases heffect with
  | opened hcoin hlast hn hfunds => exact absurd rfl htransfers
  | @refunded chain denom e hfunds hfound howner hid =>
      obtain ⟨he, hpending, -⟩ := h.wellKeyed.pendingOnRoute hfound
      have hsame : e.id = id := by simpa [eq_comm] using hnamed
      exact ⟨e, he, hsame, hpending, he.settle .canceled⟩
  | claimed hfunds hfound hpending hid => exact absurd rfl htransfers

theorem Effect.stored_of_claim {id chain : String}
    (heffect : Effect call s (.claim id chain) response t) (h : IsSound s) :
    ∃ e, Stored s e ∧ e.id = id ∧ e.status = .pending ∧ Stored t (e.settle .claimed) := by
  cases heffect with
  | @claimed id chain e hfunds hfound hpending hid =>
      obtain ⟨he, hsame⟩ := h.wellKeyed.byId_some hfound
      exact ⟨e, he, hsame, hpending, he.settle .claimed⟩

/-- What is on record after a call is new and belongs to the caller, or was there before, perhaps
with another status, and belongs to the same depositor still. -/
theorem Effect.of_stored (heffect : Effect call s command response t) (hmemory : InMemory command)
    (h : IsSound s) {x : Escrow} (hx : Stored t x) :
    (∃ recipient expiryHeight expiryTime,
      command = .initiate x.chain x.amount recipient expiryHeight expiryTime ∧
      Ledger.byId s x.id = .ok none ∧ x.settle .pending = x ∧
      Depositors.find? t x.id = .ok (some call.sender)) ∨
    ∃ y, Stored s y ∧ y.settle .pending = x.settle .pending ∧
      Depositors.find? t x.id = Depositors.find? s y.id := by
  have hsettled : ∀ e status, Stored s e → Stored (Ledger.entered (e.settle status) s) x →
      ∃ y, Stored s y ∧ y.settle .pending = x.settle .pending ∧
        Depositors.find? (Ledger.entered (e.settle status) s) x.id =
          Depositors.find? s y.id := by
    intro e status he hx
    rcases he.of_settle hx with rfl | ⟨-, hold⟩
    · exact ⟨e, he, rfl, Depositors.find_entered _ _ _⟩
    · exact ⟨x, hold, rfl, Depositors.find_entered _ _ _⟩
  cases heffect with
  | @opened chain amount recipient expiryHeight expiryTime n hcoin hlast hn hfunds =>
      have hnew := Stored.opened s (m := initiateMessage call chain amount recipient expiryHeight
        expiryTime) ⟨hmemory.1, hmemory.2⟩ (Coin.of_check hcoin).1 hn
      rcases hnew.of_opened hx with rfl | ⟨hid, hold⟩
      · have hnone : Ledger.byId s (toString (n + 1)) = .ok none := by
          unfold Ledger.byId Ledger.raw
          rw [h.fresh hlast]
        left
        exact ⟨recipient, expiryHeight, expiryTime, rfl, hnone, rfl,
          (Depositors.find_opened _ _ _ _).trans (if_pos rfl)⟩
      · right
        exact ⟨x, hold, rfl, (Depositors.find_opened _ _ _ _).trans (if_neg hid)⟩
  | @refunded chain denom e hfunds hfound howner hid =>
      right
      exact hsettled e .canceled (h.wellKeyed.pendingOnRoute hfound).1 hx
  | @claimed id chain e hfunds hfound hpending hid =>
      right
      exact hsettled e .claimed (h.wellKeyed.byId_some hfound).1 hx

/-- A cancellation returns one transfer, to the caller, who is the depositor. -/
theorem Effect.refund {chain denom : String}
    (heffect : Effect call s (.cancel chain denom) response t) (h : IsSound s) :
    ∃ e, Stored s e ∧ e.status = .pending ∧ Stored t (e.settle .canceled) ∧
      Depositors.find? s e.id = .ok (some call.sender) ∧
      response.transfers = [⟨call.sender, [e.amount]⟩] ∧
      ("escrow_id", e.id) ∈ response.attributes := by
  cases heffect with
  | @refunded chain denom e hfunds hfound howner hid =>
      obtain ⟨he, hpending, -⟩ := h.wellKeyed.pendingOnRoute hfound
      exact ⟨e, he, hpending, he.settle .canceled, howner, rfl, by simp⟩

theorem Effect.transfers_of_other (heffect : Effect call s command response t)
    (hcommand : ∀ chain denom, command ≠ .cancel chain denom) : response.transfers = [] := by
  cases heffect with
  | opened hcoin hlast hn hfunds => rfl
  | @refunded chain denom e hfunds hfound howner hid => exact absurd rfl (hcommand chain denom)
  | claimed hfunds hfound hpending hid => rfl

end Effects

/-! ## What one more receipt adds -/

theorem stored_of_pays {r : Receipt} (hvalid : r.Valid) (h : IsSound r.before) {id : String}
    (hpays : r.Pays id) : ∃ e, Stored r.before e ∧ e.id = id ∧ e.status = .pending ∧
      Stored r.after (e.settle .canceled) :=
  hvalid.2.stored_of_transfer h hpays.1 hpays.2

theorem stored_of_claim {r : Receipt} (hvalid : r.Valid) (h : IsSound r.before)
    {id chain : String} (hcommand : r.command = .claim id chain) :
    ∃ e, Stored r.before e ∧ e.id = id ∧ e.status = .pending ∧
      Stored r.after (e.settle .claimed) := by
  have heffect := hvalid.2
  rw [hcommand] at heffect
  exact heffect.stored_of_claim h

/-- Whatever is on record after a call was opened by it or before it. -/
theorem opened_of_receipt {past : List Receipt} {r : Receipt} (hvalid : r.Valid)
    (h : Chronicle past r.before) {x : Escrow} (hx : Stored r.after x) :
    ∃ o ∈ past ++ [r], o.Opens (x.settle .pending) ∧
      Depositors.find? r.after x.id = .ok (some o.call.sender) := by
  rcases hvalid.2.of_stored hvalid.1 h.sound hx with
    ⟨recipient, height, time, hcommand, hnone, hpending, howner⟩ | ⟨y, hy, hsame, hfind⟩
  · refine ⟨r, List.mem_append_right _ (List.mem_singleton_self r), ?_, howner⟩
    rw [hpending]
    exact ⟨⟨recipient, height, time, hcommand⟩, hnone, hx.byId⟩
  · obtain ⟨o, ho, hopens, howner⟩ := h.opened y hy
    refine ⟨o, List.mem_append_left _ ho, ?_, hfind.trans howner⟩
    rw [← hsame]
    exact hopens

theorem chronicle_step (past : List Receipt) (r : Receipt) (hvalid : r.Valid)
    (h : Chronicle past r.before) : Chronicle (past ++ [r]) r.after where
  sound := isSound_of_receipt hvalid h.sound
  opened e he := opened_of_receipt hvalid h he
  paid o ho id hpays := by
    rcases List.mem_append.1 ho with hpast | hlast
    · obtain ⟨e, he, hid, hcanceled⟩ := h.paid o hpast id hpays
      refine ⟨e, hvalid.2.stored h.sound he ?_, hid, hcanceled⟩
      rw [hcanceled]
      decide
    · obtain rfl := List.mem_singleton.1 hlast
      obtain ⟨e, -, hid, -, he⟩ := stored_of_pays hvalid h.sound hpays
      exact ⟨e.settle .canceled, he, hid, rfl⟩
  claimed o ho id chain hcommand := by
    rcases List.mem_append.1 ho with hpast | hlast
    · obtain ⟨e, he, hid, hclaimed⟩ := h.claimed o hpast id chain hcommand
      refine ⟨e, hvalid.2.stored h.sound he ?_, hid, hclaimed⟩
      rw [hclaimed]
      decide
    · obtain rfl := List.mem_singleton.1 hlast
      obtain ⟨e, -, hid, -, he⟩ := stored_of_claim hvalid h.sound hcommand
      exact ⟨e.settle .claimed, he, hid, rfl⟩

/-! ## Whole runs -/

theorem chronicle_deployed (setup : Setup) : Chronicle [] (deployed setup) where
  sound := isSound_deployed setup
  opened e he := by
    have hget := he.get
    rw [same_deployed setup _ (Store.Key.ofLedger_escrow e.id)] at hget
    cases hget
  paid o ho := by cases ho
  claimed o ho := by cases ho

section Run

variable {setup : Setup} {contract : Address} {calls : List Invocation}
  {earlier later : List Receipt} {r : Receipt}

theorem chronicle_before
    (hsplit : history contract calls (deployed setup) = earlier ++ r :: later) :
    r.Valid ∧ Chronicle earlier r.before := by
  obtain ⟨hvalid, hchronicle⟩ := history_split chronicle_step (chronicle_deployed setup) hsplit
  exact ⟨hvalid, hchronicle⟩

theorem chronicle_settled (setup : Setup) (contract : Address) (calls : List Invocation) :
    Chronicle (history contract calls (deployed setup)) (settled contract calls (deployed setup)) :=
  history_induction chronicle_step calls (chronicle_deployed setup)

/-- What is pending has not been paid for. -/
theorem not_pays_of_pending {past : List Receipt} {s : Store} (h : Chronicle past s) {e : Escrow}
    (he : Stored s e) (hpending : e.status = .pending) : ∀ o ∈ past, ¬ o.Pays e.id := by
  intro o ho hpaid
  obtain ⟨x, hx, hid, hcanceled⟩ := h.paid o ho e.id hpaid
  obtain rfl := he.eq_of_id hx hid
  rw [hpending] at hcanceled
  cases hcanceled

/-- A later receipt has the earlier one before it. -/
theorem split_at_later
    (hsplit : history contract calls (deployed setup) = earlier ++ r :: later) {o : Receipt}
    (ho : o ∈ later) : ∃ between rest,
      history contract calls (deployed setup) = (earlier ++ r :: between) ++ o :: rest := by
  obtain ⟨between, rest, rfl⟩ := List.append_of_mem ho
  refine ⟨between, rest, ?_⟩
  rw [hsplit, List.append_assoc, List.cons_append]

theorem not_pays_earlier
    (hsplit : history contract calls (deployed setup) = earlier ++ r :: later) {id : String}
    (hpays : r.Pays id) : ∀ o ∈ earlier, ¬ o.Pays id := by
  obtain ⟨hvalid, h⟩ := chronicle_before hsplit
  obtain ⟨e, he, rfl, hpending, -⟩ := stored_of_pays hvalid h.sound hpays
  exact not_pays_of_pending h he hpending

theorem not_pays_later
    (hsplit : history contract calls (deployed setup) = earlier ++ r :: later) {id : String}
    (hpays : r.Pays id) : ∀ o ∈ later, ¬ o.Pays id := by
  intro o ho hpaid
  obtain ⟨between, rest, hsplit'⟩ := split_at_later hsplit ho
  exact not_pays_earlier hsplit' hpaid r (by simp) hpays

/-- A call that claims an escrow found it not yet paid for. -/
theorem not_pays_before_claim
    (hsplit : history contract calls (deployed setup) = earlier ++ r :: later) {id chain : String}
    (hcommand : r.command = .claim id chain) : ∀ o ∈ earlier, ¬ o.Pays id := by
  obtain ⟨hvalid, h⟩ := chronicle_before hsplit
  obtain ⟨e, he, rfl, hpending, -⟩ := stored_of_claim hvalid h.sound hcommand
  exact not_pays_of_pending h he hpending

/-- A call after it finds it claimed. -/
theorem not_pays_after_claim
    (hsplit : history contract calls (deployed setup) = earlier ++ r :: later) {id chain : String}
    (hcommand : r.command = .claim id chain) : ∀ o ∈ later, ¬ o.Pays id := by
  intro o ho hpaid
  obtain ⟨between, rest, hsplit'⟩ := split_at_later hsplit ho
  obtain ⟨hvalid, h⟩ := chronicle_before hsplit'
  obtain ⟨e, he, hid, hpending, -⟩ := stored_of_pays hvalid h.sound hpaid
  obtain ⟨x, hx, hxid, hclaimed⟩ := h.claimed r (by simp) id chain hcommand
  obtain rfl := he.eq_of_id hx (hxid.trans hid.symm)
  rw [hpending] at hclaimed
  cases hclaimed

/-- A cancellation refunds one escrow, to the caller, who opened it. -/
theorem refunds_of_cancel (hvalid : r.Valid) (h : Chronicle earlier r.before) {chain denom : String}
    (hcommand : r.command = .cancel chain denom) :
    ∃ e, r.Refunds e ∧ ∃ o ∈ earlier, o.Opens e ∧ o.call.sender = r.call.sender := by
  have heffect := hvalid.2
  rw [hcommand] at heffect
  obtain ⟨e, he, hpending, hcanceled, howner, htransfers, hnamed⟩ := heffect.refund h.sound
  obtain ⟨o, ho, hopens, hfind⟩ := h.opened e he
  have hpays : r.Pays e.id := by
    refine ⟨?_, hnamed⟩
    rw [htransfers]
    exact List.cons_ne_nil _ _
  have hsame : e.settle .pending = e := by
    rw [← hpending]
    rfl
  refine ⟨e, ⟨hpending, he.byId, hcanceled.byId, htransfers, hpays⟩, o, ho, ?_, ?_⟩
  · rw [← hsame]
    exact hopens
  · rw [howner] at hfind
    exact (Option.some.inj (Except.ok.inj hfind)).symm

/-- At any receipt of a run on a contract. A cancellation has refunded one escrow, to the caller, who
opened it earlier in the run; no other call is returned a transfer for it, and canceled it remains. A
claimed escrow is not paid for by any call. Calls that initiate or claim return no transfer. -/
theorem refunded_once
    (hsplit : history contract calls (deployed setup) = earlier ++ r :: later) :
    match r.command with
    | .initiate _ _ _ _ _ => r.response.transfers = []
    | .cancel _ _ => ∃ e, r.Refunds e ∧
        (∃ o ∈ earlier, o.Opens e ∧ o.call.sender = r.call.sender) ∧
        (∀ o ∈ earlier ++ later, ¬ o.Pays e.id) ∧
        ∃ x, Ledger.byId (settled contract calls (deployed setup)) e.id = .ok (some x) ∧
          x.status = .canceled
    | .claim id _ => r.response.transfers = [] ∧ ∀ o ∈ earlier ++ later, ¬ o.Pays id := by
  obtain ⟨hvalid, h⟩ := chronicle_before hsplit
  split
  · rename_i hcommand
    apply hvalid.2.transfers_of_other
    intro chain denom hcancel
    rw [hcommand] at hcancel
    cases hcancel
  · rename_i chain denom hcommand
    obtain ⟨e, hrefunds, hopened⟩ := refunds_of_cancel hvalid h hcommand
    have hmem : r ∈ history contract calls (deployed setup) := by
      rw [hsplit]
      simp
    obtain ⟨x, hx, hid, hcanceled⟩ :=
      (chronicle_settled setup contract calls).paid r hmem e.id hrefunds.pays
    refine ⟨e, hrefunds, hopened, ?_, x, hid ▸ hx.byId, hcanceled⟩
    intro o ho
    rcases List.mem_append.1 ho with ho | ho
    · exact not_pays_earlier hsplit hrefunds.pays o ho
    · exact not_pays_later hsplit hrefunds.pays o ho
  · rename_i id chain hcommand
    constructor
    · apply hvalid.2.transfers_of_other
      intro chain' denom hcancel
      rw [hcommand] at hcancel
      cases hcancel
    · intro o ho
      rcases List.mem_append.1 ho with ho | ho
      · exact not_pays_before_claim hsplit hcommand o ho
      · exact not_pays_after_claim hsplit hcommand o ho

end Run

theorem refunded_once_one_depositor :
    let sender := "maany190vqdjtlpcq27xslcveglfmr4ynfwg7g9637yr"
    let coin : Coin := ⟨"umaany", ⟨100, by decide⟩⟩
    let calls : List Invocation := [
      ⟨1, ⟨sender, [coin]⟩, .initiate "dex-1" coin none none none, ⟨by decide, by decide⟩⟩,
      ⟨2, ⟨sender, []⟩, .cancel "dex-1" "umaany", trivial⟩]
    ∃ o r, history "contract" calls (deployed {}) = [o, r] ∧
      r.command = .cancel "dex-1" "umaany" ∧
      ∃ e, r.Refunds e ∧ o.Opens e ∧ o.call.sender = r.call.sender := by
  intro sender coin calls
  have hcommands : (history "contract" calls (deployed {})).map Receipt.command =
      [.initiate "dex-1" coin none none none, .cancel "dex-1" "umaany"] := by decide +kernel
  obtain ⟨o, rest, hhistory, -, hrest⟩ := List.map_eq_cons_iff.1 hcommands
  obtain ⟨r, tail, rfl, hcommand, htail⟩ := List.map_eq_cons_iff.1 hrest
  obtain rfl := List.map_eq_nil_iff.1 htail
  refine ⟨o, r, hhistory, hcommand, ?_⟩
  have hrefunded := @refunded_once {} "contract" calls [o] [] r hhistory
  rw [hcommand] at hrefunded
  obtain ⟨e, hrefunds, ⟨o', ho', hopens, hsender⟩, -, -⟩ := hrefunded
  obtain rfl := List.mem_singleton.1 ho'
  exact ⟨e, hrefunds, hopens, hsender⟩

end Custody.Contract
