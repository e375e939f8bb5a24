import Custody.Proofs.Escrow.Refundable

/-!
# The latest escrow of a route

Every successful action points the route of its escrow back at that escrow, and no other route. So
a route leads to the escrow on it that was opened, canceled or claimed last, as that has left it.
-/

namespace Custody.Vault

open Ledger (IsSound Kept Routed Stored)
open Store (Key.route)

variable {β : Type} {chain denom : String} {past next : List Entry} {s t : Store}

/-! ## What was written last -/

/-- The escrow on the route that was written last, as it was written. -/
def latest? (chain denom : String) (past : List Entry) : Option Escrow :=
  ((past.map Entry.escrow).filter fun e => e.OnRoute chain denom).getLast?

theorem latest?_append_other (hother : ∀ x ∈ next, ¬ x.escrow.OnRoute chain denom) :
    latest? chain denom (past ++ next) = latest? chain denom past := by
  have hnone : (next.map Entry.escrow).filter (fun e => e.OnRoute chain denom) = [] := by
    rw [List.filter_eq_nil_iff]
    simpa using hother
  rw [latest?, List.map_append, List.filter_append, hnone, List.append_nil]
  rfl

theorem latest?_concat {x : Entry} (hroute : x.escrow.OnRoute chain denom) :
    latest? chain denom (past ++ [x]) = some x.escrow := by
  have hkept : ([x].map Entry.escrow).filter (fun e => e.OnRoute chain denom) = [x.escrow] := by
    simpa using hroute
  rw [latest?, List.map_append, List.filter_append, hkept, List.getLast?_concat]

theorem onRoute_of_latest? {e : Escrow} (h : latest? chain denom past = some e) :
    e.OnRoute chain denom := by
  have hmem := List.mem_of_getLast? h
  simpa using (List.mem_filter.1 hmem).2

/-! ## What a route leads to -/

/-- The route leads to the escrow that was written last on it, and nowhere before one was opened. -/
structure Tracks (s : Store) (chain denom : String) (past : List Entry) : Prop where
  opened : latest? chain denom past = none ↔ ¬ Occurs Action.opens chain denom past
  absent : latest? chain denom past = none → s.get (Key.route chain denom) = none
  found : ∀ e, latest? chain denom past = some e → Routed s e

namespace Tracks

theorem empty : Tracks .empty chain denom [] where
  opened := by
    simp [latest?, Occurs]
  absent _ := rfl
  found e h := by cases h

theorem byRoute (h : Tracks s chain denom past) :
    Ledger.byRoute s chain denom = .ok (latest? chain denom past) := by
  cases hlatest : latest? chain denom past with
  | none =>
      unfold Ledger.byRoute
      rw [h.absent hlatest]
  | some e =>
      have hrouted := h.found e hlatest
      obtain ⟨rfl, rfl⟩ := onRoute_of_latest? hlatest
      exact hrouted.toStored.byRoute hrouted.index

/-- An escrow on record has been opened on its route. -/
theorem occurs (h : Tracks s chain denom past) {e : Escrow} (he : Kept s e)
    (hroute : e.OnRoute chain denom) : Occurs Action.opens chain denom past := by
  by_contra hnone
  have hindex := he.routed
  rw [hroute.1, hroute.2, h.absent (h.opened.2 hnone)] at hindex
  cases hindex

/-- What is written on another route leaves the route alone. -/
theorem other (h : Tracks s chain denom past) {x : Entry}
    (hother : ¬ x.escrow.OnRoute chain denom)
    (hindex : t.get (Key.route chain denom) = s.get (Key.route chain denom))
    (hkept : ∀ e, Routed s e → e.OnRoute chain denom → Routed t e) :
    Tracks t chain denom (past ++ [x]) := by
  have hlatest : latest? chain denom (past ++ [x]) = latest? chain denom past :=
    latest?_append_other (by simpa using hother)
  have hopened : Occurs Action.opens chain denom (past ++ [x]) ↔
      Occurs Action.opens chain denom past := by
    rw [occurs_append, occurs_singleton]
    exact or_iff_left fun hx => hother hx.2
  refine ⟨?_, ?_, ?_⟩ <;> rw [hlatest]
  · rw [hopened]
    exact h.opened
  · intro hnone
    exact hindex.trans (h.absent hnone)
  · intro e he
    exact hkept e (h.found e he) (onRoute_of_latest? he)

/-- What is written on the route is what it leads to. -/
theorem written {x : Entry} (hroute : x.escrow.OnRoute chain denom)
    (hopened : Occurs Action.opens chain denom past ∨ x.action.opens) (hx : Routed t x.escrow) :
    Tracks t chain denom (past ++ [x]) := by
  refine ⟨?_, ?_, ?_⟩ <;> rw [latest?_concat hroute]
  · rw [occurs_append, occurs_singleton]
    refine iff_of_false (Option.some_ne_none _) (not_not_intro ?_)
    exact hopened.imp_right fun hx => ⟨hx, hroute⟩
  · exact fun hnone => absurd hnone (Option.some_ne_none _)
  · intro e he
    obtain rfl := Option.some.inj he
    exact hx

/-- A settlement of an escrow on record, on whatever route it is. -/
theorem settle (h : Tracks s chain denom past) (hsound : IsSound s)
    (hdenom : Coin.validDenom denom) {e : Escrow} (he : Stored s e) (status : Status)
    (a : Action) :
    Tracks (Ledger.entered (e.settle status) s) chain denom (past ++ [⟨a, e.settle status⟩]) := by
  have hkept := hsound.kept he
  by_cases hroute : e.OnRoute chain denom
  · exact written hroute (.inl (h.occurs hkept hroute)) (he.routed_settle status)
  · refine h.other hroute (Ledger.get_settled_route_other s hkept.denom hdenom hroute status) ?_
    rintro x hx ⟨rfl, rfl⟩
    exact hx.settle_other hsound he hroute status

theorem initiate (h : Tracks s chain denom past) (hsound : IsSound s)
    (hdenom : Coin.validDenom denom) {m : Initiate} {n : Nat} (hlast : Ledger.lastId s = .ok n)
    (inMemory : m.Addressable) (hvalid : Coin.validDenom m.amount.denom)
    (hn : n + 1 < UInt64.size) :
    Tracks (Vault.opened m (n + 1) s) chain denom
      (past ++ [⟨.initiate m inMemory, m.escrow (toString (n + 1))⟩]) := by
  by_cases hroute : (m.escrow (toString (n + 1))).OnRoute chain denom
  · refine written hroute (.inr rfl) ⟨.opened s inMemory hvalid hn, ?_⟩
    exact (Ledger.get_opened_index m (n + 1) s _).trans (if_pos rfl)
  · refine h.other hroute (Ledger.get_opened_route_other s hvalid hdenom hroute) ?_
    rintro x hx ⟨rfl, rfl⟩
    exact hx.opened_other hsound hlast hvalid hroute

end Tracks

/-! ## Along a run -/

section Running

variable [Custodian β] {cfg : Config} {v : Vault β}

theorem tracks_after (hsound : IsSound v.store) (hdenom : Coin.validDenom denom)
    (h : Tracks v.store chain denom past) (a : Action) :
    Tracks (a.after cfg v).store chain denom (past ++ (logged? cfg v a).toList) := by
  have heffect := effect cfg hsound.wellKeyed a
  unfold logged?
  generalize a.written? cfg v = written at heffect ⊢
  generalize a.after cfg v = v' at heffect ⊢
  cases heffect with
  | refused a =>
      rw [Option.map_none, Option.toList_none, List.append_nil]
      exact h
  | stranded hholder hsend =>
      rw [Option.map_none, Option.toList_none, List.append_nil]
      exact h
  | @opened m inMemory account bank n hcoin hsender hholder hsend hlast hn =>
      exact h.initiate hsound hdenom hlast inMemory (Coin.of_check hcoin).1 hn
  | canceled hstored hpending hrouted howner hholder hsend =>
      exact h.settle hsound hdenom hstored .canceled _
  | claimed hstored hpending hid => exact h.settle hsound hdenom hstored .claimed _

theorem tracks_run (cfg : Config) (bank : β) (actions : List Action)
    (hdenom : Coin.validDenom denom) :
    Tracks (run cfg actions ⟨.empty, bank⟩).store chain denom
      (log cfg actions ⟨.empty, bank⟩) := by
  have hboth : IsSound (run cfg actions ⟨.empty, bank⟩).store ∧
      Tracks (run cfg actions ⟨.empty, bank⟩).store chain denom
        ([] ++ log cfg actions ⟨.empty, bank⟩) := by
    apply log_induction (P := fun past v => IsSound v.store ∧ Tracks v.store chain denom past)
    · rintro past v a ⟨hsound, htracks⟩
      exact ⟨isSound_after cfg hsound a, tracks_after hsound hdenom htracks a⟩
    · exact ⟨⟨0, .empty⟩, .empty⟩
  exact hboth.2

/-- An action that writes nothing on the route does not change where it leads. -/
theorem byRoute_after_other (hsound : IsSound v.store) (hdenom : Coin.validDenom denom)
    (h : Tracks v.store chain denom past) {a : Action}
    (hother : ∀ e, a.written? cfg v = some e → ¬ e.OnRoute chain denom) :
    Ledger.byRoute (a.after cfg v).store chain denom = Ledger.byRoute v.store chain denom := by
  rw [h.byRoute, (tracks_after hsound hdenom h a).byRoute, latest?_append_other]
  intro x hx
  rw [Option.mem_toList, logged?, Option.map_eq_some_iff] at hx
  obtain ⟨e, he, rfl⟩ := hx
  exact hother e he

/-- What an action is about, namely the route that its message names, or that of the escrow on
record under the claimed id, is another route. -/
def Action.Elsewhere (s : Store) (chain denom : String) : Action → Prop
  | .initiate m _ => ¬ (m.chain = chain ∧ m.amount.denom = denom)
  | .cancel m => (0 : UInt8) ∉ Bytes.ofString m.denom ∧ ¬ (m.chain = chain ∧ m.denom = denom)
  | .claim m => ∀ e, Ledger.byId s m.escrowId = .ok (some e) → ¬ e.OnRoute chain denom

theorem Action.Elsewhere.written (hsound : IsSound v.store) {a : Action}
    (helse : a.Elsewhere v.store chain denom) {e : Escrow} (he : a.written? cfg v = some e) :
    ¬ e.OnRoute chain denom := by
  have heffect := effect cfg hsound.wellKeyed a
  rw [he] at heffect
  generalize a.after cfg v = v' at heffect
  cases heffect with
  | opened hcoin hsender hholder hsend hlast hn => exact helse
  | @canceled m x account bank hx hpending hrouted howner hholder hsend =>
      have hkey := hsound.route_eq hx hrouted
      have hvalid := Coin.zero_not_mem_denom (hsound.kept hx).denom
      obtain ⟨hchain, hname⟩ := (Store.Key.route_inj_of_zero_not_mem helse.1 hvalid).1 hkey
      rintro ⟨hroute, hdenom⟩
      exact helse.2 ⟨hchain.trans hroute, hname.trans hdenom⟩
  | @claimed m x hx hpending hid =>
      have hfound := hx.byId
      rw [hid] at hfound
      exact helse x hfound

/-- In any run from an empty store, a route leads to the escrow on it that was opened, canceled or
claimed last, in its current form, and nowhere before one is opened on it. What is done on other
routes does not change that. -/
theorem byRoute_latest (cfg : Config) (bank : β) (actions : List Action)
    (hdenom : Coin.validDenom denom) :
    let v := run cfg actions ⟨.empty, bank⟩
    let past := log cfg actions ⟨.empty, bank⟩
    Ledger.byRoute v.store chain denom = .ok (latest? chain denom past) ∧
      (∀ e, latest? chain denom past = some e →
        e.OnRoute chain denom ∧ Ledger.byId v.store e.id = .ok (some e)) ∧
      (latest? chain denom past = none ↔ ¬ Occurs Action.opens chain denom past) ∧
      (∀ a : Action, (∀ e, a.written? cfg v = some e → ¬ e.OnRoute chain denom) →
        Ledger.byRoute (a.after cfg v).store chain denom = Ledger.byRoute v.store chain denom) ∧
      ∀ a : Action, a.Elsewhere v.store chain denom →
        Ledger.byRoute (a.after cfg v).store chain denom = Ledger.byRoute v.store chain denom := by
  intro v past
  have hsound : IsSound v.store := ⟨_, sound_run cfg bank actions⟩
  have htracks : Tracks v.store chain denom past := tracks_run cfg bank actions hdenom
  refine ⟨htracks.byRoute, ?_, htracks.opened, ?_, ?_⟩
  · intro e he
    exact ⟨onRoute_of_latest? he, (htracks.found e he).toStored.byId⟩
  · intro a hother
    exact byRoute_after_other hsound hdenom htracks hother
  · intro a helse
    exact byRoute_after_other hsound hdenom htracks fun e he => helse.written hsound he

theorem byRoute_latest_older_claimed :
    let owner := "maany190vqdjtlpcq27xslcveglfmr4ynfwg7g9637yr"
    let coin : Coin := ⟨"umaany", ⟨100, by decide⟩⟩
    let bank := (Balances.empty "maany").set owner ⟨"umaany", ⟨300, by decide⟩⟩
    let older : Initiate := ⟨owner, "dex-1", coin, "", 7, 9⟩
    let actions := [
      Action.initiate older ⟨by decide, by decide⟩,
      Action.initiate ⟨owner, "dex-1", coin, "", 0, 0⟩ ⟨by decide, by decide⟩,
      Action.initiate ⟨owner, "dex-1\x00umaany", coin, "", 0, 0⟩ ⟨by decide, by decide⟩,
      Action.claim ⟨owner, "1", "dex-1"⟩]
    let claimed := (older.escrow "1").settle .claimed
    let now := run {} actions ⟨.empty, bank⟩
    let other := Action.cancel ⟨owner, "dex-1\x00umaany", "umaany"⟩
    Coin.validDenom "umaany" ∧ Ledger.byRoute now.store "dex-1" "umaany" = .ok (some claimed) ∧
      other.Elsewhere now.store "dex-1" "umaany" ∧ (other.written? {} now).isSome ∧
      Ledger.byRoute (other.after {} now).store "dex-1" "umaany" = .ok (some claimed) := by
  intro owner coin bank older actions claimed now other
  have hlatest : latest? "dex-1" "umaany" (log {} actions ⟨.empty, bank⟩) = some claimed ∧
      (other.written? {} now).isSome := by
    decide +kernel
  have helse : other.Elsewhere now.store "dex-1" "umaany" := by
    constructor <;> decide +kernel
  obtain ⟨hfound, -, -, -, hkept⟩ :=
    @byRoute_latest Balances "dex-1" "umaany" _ {} bank actions (by decide +kernel)
  rw [hlatest.1] at hfound
  exact ⟨by decide +kernel, hfound, helse, hlatest.2, (hkept other helse).trans hfound⟩

end Running

end Custody.Vault
