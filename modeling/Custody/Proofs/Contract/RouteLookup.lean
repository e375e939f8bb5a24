import Mathlib.Control.Monad.Basic
import Custody.Bank.Balances
import Custody.Proofs.Contract.History
import Custody.Proofs.Escrow.Export
import Custody.Proofs.Ledger.Route

/-!
# Asking for a route

A zero ends the chain in a key of the route index, and whoever opens an escrow must name a
denomination that holds none. Whoever asks for a route need not: a denomination with a zero in it
reads as the end of a longer chain. So what is found is on the route that was asked for exactly if
the denomination that was asked for holds no zero.
-/

namespace Custody.Contract

open Ledger (IsSound Stored)
open Store (Key.route)

/-- The ways to ask for a route, and the escrow that is found. -/
inductive Finds (s : Store) (chain denom : String) (e : Escrow) : Prop
  | asked {env : Env} (hanswer : query env s (.escrow chain denom) = .ok (.escrow ⟨some e⟩))
  | described {cfg : Config} {height now : UInt64} {p : ProofMaterial}
      (hdescribed : Export.describe s cfg chain denom height now = .ok (.current p))
      (hrecord : Ledger.byId s p.escrowId = .ok (some e))
  | proved {env : Env} {height : Option UInt64} {prove : Option Bool} {a : ProofAnswer}
      (hanswer : query env s (.proof chain denom height prove) = .ok (.proof a))
      (hrecord : Ledger.byId s a.escrowId = .ok (some e))
  | canceled {β : Type} [Custodian β] {cfg : Config} {sender : String} {bank : β}
      (hcanceled : (Vault.cancel cfg ⟨sender, chain, denom⟩).result ⟨s, bank⟩ = .ok e)

variable {s : Store} {chain denom : String} {e : Escrow}

/-! ## Every way goes through the index -/

theorem byRoute_of_query {env : Env} {found : Option Escrow}
    (h : query env s (.escrow chain denom) = .ok (.escrow ⟨found⟩)) :
    Ledger.byRoute s chain denom = .ok found := by
  obtain ⟨u, -, hrest⟩ := Operation.of_except_bind_ok h
  obtain ⟨u', -, hrest⟩ := Operation.of_except_bind_ok hrest
  obtain ⟨x, hroute, hanswer⟩ := Operation.of_except_bind_ok hrest
  cases hanswer
  exact hroute

theorem describe_of_query {env : Env} {height : Option UInt64} {prove : Option Bool}
    {a : ProofAnswer} (h : query env s (.proof chain denom height prove) = .ok (.proof a)) :
    ∃ cfg p, Export.describe s cfg chain denom (height.getD 0) env.height = .ok (.current p) ∧
      p.escrowId = a.escrowId := by
  obtain ⟨x, hproof, hanswer⟩ := Operation.of_except_bind_ok h
  cases hanswer
  unfold queryProof at hproof
  split at hproof
  · cases hproof
  · obtain ⟨cfg, -, hrest⟩ := Operation.of_except_bind_ok hproof
    obtain ⟨described, hdescribe, hmaterial⟩ := Operation.of_except_bind_ok hrest
    cases described with
    | rejected requested current => cases hmaterial
    | current p =>
        cases hmaterial
        exact ⟨cfg, p, hdescribe, rfl⟩

theorem indexed_of_describe (h : IsSound s) {cfg : Config} {height now : UInt64}
    {p : ProofMaterial} (hdescribed : Export.describe s cfg chain denom height now = .ok (.current p))
    (hrecord : Ledger.byId s p.escrowId = .ok (some e)) :
    Stored s e ∧ s.get (Key.route chain denom) = some (Bytes.ofString e.id) := by
  obtain ⟨n, hn⟩ := h
  obtain ⟨hstored, hid⟩ := hn.wellKeyed.byId_some hrecord
  obtain ⟨-, hfaithful⟩ := Export.faithful_of_current hn.linked hdescribed
  rw [hid]
  exact ⟨hstored, hfaithful.routed⟩

/-- What is found is on record, up to its status, and the index leads to it. -/
theorem Finds.indexed (hfinds : Finds s chain denom e) (h : IsSound s) :
    ∃ x status, Stored s x ∧ s.get (Key.route chain denom) = some (Bytes.ofString x.id) ∧
      e = x.settle status := by
  cases hfinds with
  | asked hanswer =>
      obtain ⟨hstored, hindex⟩ := h.wellKeyed.byRoute_some (byRoute_of_query hanswer)
      exact ⟨e, e.status, hstored, hindex, rfl⟩
  | described hdescribed hrecord =>
      obtain ⟨hstored, hindex⟩ := indexed_of_describe h hdescribed hrecord
      exact ⟨e, e.status, hstored, hindex, rfl⟩
  | proved hanswer hrecord =>
      obtain ⟨cfg, p, hdescribed, hid⟩ := describe_of_query hanswer
      rw [← hid] at hrecord
      obtain ⟨hstored, hindex⟩ := indexed_of_describe h hdescribed hrecord
      exact ⟨e, e.status, hstored, hindex, rfl⟩
  | @canceled β _ cfg sender bank hcanceled =>
      have houtcome := Vault.cancel_outcome cfg ⟨sender, chain, denom⟩ (⟨s, bank⟩ : Vault β)
      rw [Operation.ok_of_result hcanceled] at houtcome
      generalize (Vault.cancel cfg ⟨sender, chain, denom⟩).after ⟨s, bank⟩ = v at houtcome
      cases houtcome with
      | @settled x account bank hfound howner hholder hsend hid =>
          obtain ⟨hstored, -, hindex⟩ := h.wellKeyed.pendingOnRoute hfound
          exact ⟨x, .canceled, hstored, hindex, rfl⟩

/-! ## What the index tells apart -/

theorem Finds.route_eq (hfinds : Finds s chain denom e) (h : IsSound s) :
    Key.route chain denom = Key.route e.chain e.amount.denom := by
  obtain ⟨x, status, hstored, hindex, rfl⟩ := hfinds.indexed h
  exact h.route_eq hstored hindex

theorem Finds.zero_not_mem (hfinds : Finds s chain denom e) (h : IsSound s) :
    (0 : UInt8) ∉ Bytes.ofString e.amount.denom := by
  obtain ⟨x, status, hstored, -, rfl⟩ := hfinds.indexed h
  exact Coin.zero_not_mem_denom (h.kept hstored).denom

theorem Finds.onRoute_iff (hfinds : Finds s chain denom e) (h : IsSound s) :
    e.OnRoute chain denom ↔ (0 : UInt8) ∉ Bytes.ofString denom := by
  constructor
  · rintro ⟨-, rfl⟩
    exact hfinds.zero_not_mem h
  · intro hzero
    obtain ⟨hchain, hdenom⟩ := (Store.Key.route_inj_of_zero_not_mem hzero
      (hfinds.zero_not_mem h)).1 (hfinds.route_eq h)
    exact ⟨hchain.symm, hdenom.symm⟩

/-- One escrow on record is found under one key of the index only. -/
theorem Finds.route_unique {chain' denom' : String} {e' : Escrow}
    (hfinds : Finds s chain denom e) (hfinds' : Finds s chain' denom' e') (h : IsSound s)
    (hid : e'.id = e.id) : Key.route chain' denom' = Key.route chain denom := by
  rw [hfinds.route_eq h, hfinds'.route_eq h]
  obtain ⟨x, status, hstored, -, rfl⟩ := hfinds.indexed h
  obtain ⟨x', status', hstored', -, rfl⟩ := hfinds'.indexed h
  obtain rfl := hstored.eq_of_id hstored' hid
  rfl

theorem isSound_settled (setup : Setup) (contract : Address) (calls : List Invocation) :
    IsSound (settled contract calls (deployed setup)) := by
  have hstep : ∀ (past : List Receipt) (r : Receipt), r.Valid → IsSound r.before → IsSound r.after :=
    fun _ _ hvalid h => isSound_of_receipt hvalid h
  exact @history_induction contract (fun _ s => IsSound s) hstep calls [] _ (isSound_deployed setup)

/-- After any calls on a contract, an escrow that is found for a route has the key of that route, and
is on that route exactly if the denomination asked for holds no zero. Different routes whose
denominations hold no zero do not lead to the same escrow. -/
theorem routes_told_apart (setup : Setup) (contract : Address) (calls : List Invocation)
    (hfinds : Finds (settled contract calls (deployed setup)) chain denom e) :
    Key.route chain denom = Key.route e.chain e.amount.denom ∧
      (e.OnRoute chain denom ↔ (0 : UInt8) ∉ Bytes.ofString denom) ∧
      ∀ chain' denom' e', Finds (settled contract calls (deployed setup)) chain' denom' e' →
        e'.id = e.id → (0 : UInt8) ∉ Bytes.ofString denom → (0 : UInt8) ∉ Bytes.ofString denom' →
          chain' = chain ∧ denom' = denom := by
  have hsound := isSound_settled setup contract calls
  refine ⟨hfinds.route_eq hsound, hfinds.onRoute_iff hsound, ?_⟩
  intro chain' denom' e' hfinds' hid hzero hzero'
  exact (Store.Key.route_inj_of_zero_not_mem hzero' hzero).1
    (hfinds.route_unique hfinds' hsound hid)

theorem routes_told_apart_zero_in_chain :
    let owner := "maany190vqdjtlpcq27xslcveglfmr4ynfwg7g9637yr"
    let coin : Coin := ⟨"umaany", ⟨100, by decide⟩⟩
    let calls : List Invocation := [
      ⟨1, ⟨owner, [coin]⟩, .initiate "a\x00b" coin none none none, ⟨by decide, by decide⟩⟩]
    let s := settled "contract" calls (deployed {})
    let e : Escrow := ⟨"1", "a\x00b", coin, "", 0, 0, .pending⟩
    query ⟨2, "contract"⟩ s (.escrow "a\x00b" "umaany") = .ok (.escrow ⟨some e⟩) ∧
      (e.OnRoute "a\x00b" "umaany" ↔ (0 : UInt8) ∉ Bytes.ofString "umaany") := by
  intro owner coin calls s e
  have hanswer : query ⟨2, "contract"⟩ s (.escrow "a\x00b" "umaany") = .ok (.escrow ⟨some e⟩) := by
    decide +kernel
  exact ⟨hanswer, (routes_told_apart {} "contract" calls (.asked hanswer)).2.1⟩

/-- An escrow for the chain "a\x00b" is found for the chain "a" too, whichever way it is asked for. -/
theorem aliased_by_zero :
    let owner := "maany190vqdjtlpcq27xslcveglfmr4ynfwg7g9637yr"
    let coin : Coin := ⟨"umaany", ⟨100, by decide⟩⟩
    let calls : List Invocation := [
      ⟨1, ⟨owner, [coin]⟩, .initiate "a\x00b" coin none none none, ⟨by decide, by decide⟩⟩]
    let s := settled "contract" calls (deployed {})
    let e : Escrow := ⟨"1", "a\x00b", coin, "", 0, 0, .pending⟩
    let bank := (Balances.empty "maany").set "maany18y7xpnypjny4k23vfxn8f2rsaltv2sxzy55qz0" coin
    (query ⟨2, "contract"⟩ s (.escrow "a" "b\x00umaany") = .ok (.escrow ⟨some e⟩) ∧
        query ⟨2, "contract"⟩ s (.escrow "a\x00b" "umaany") = .ok (.escrow ⟨some e⟩)) ∧
      Export.describe s {} "a" "b\x00umaany" 0 2 = .ok (.current (Export.material {} 2 e)) ∧
      (Vault.cancel {} ⟨owner, "a", "b\x00umaany"⟩).result ⟨s, bank⟩ = .ok (e.settle .canceled) ∧
      ¬ e.OnRoute "a" "b\x00umaany" := by
  decide +kernel

end Custody.Contract
