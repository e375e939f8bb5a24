import Custody.Proofs.Escrow.Settlement

/-!
# Settlements on different routes

Ending an escrow changes its record and what its route leads to. A request about another route finds
what it would have found before, so two such requests can be swapped.
-/

namespace Custody.Vault

open Ledger (IsSound Stored)
open Store (Key.route)

namespace Settlement

/-! ## What a request is about -/

/-- The route of the escrow that the request is about: a claim names the escrow, a cancellation the
route itself. -/
def route? (s : Store) : Settlement → Option (String × String)
  | .cancel m => some (m.chain, m.denom)
  | .claim m =>
    match Ledger.byId s m.escrowId with
    | .ok (some e) => some (e.chain, e.amount.denom)
    | _ => none

/-- The requests are not about the same route. -/
def Apart (s : Store) (a b : Settlement) : Prop := ∀ route ∈ a.route? s, route ∉ b.route? s

instance (s : Store) (a b : Settlement) : Decidable (Apart s a b) :=
  inferInstanceAs (Decidable (∀ route ∈ a.route? s, route ∉ b.route? s))

theorem Apart.symm {s : Store} {a b : Settlement} (h : Apart s a b) : Apart s b a :=
  fun route hb ha => h route ha hb

theorem validDenom_of_check {hrp : String} {m : Cancel} (h : m.check hrp = .ok ()) :
    Coin.validDenom m.denom := by
  unfold Cancel.check at h
  obtain ⟨u, -, hrest⟩ := Operation.of_except_bind_ok h
  obtain ⟨u', -, hdenom⟩ := Operation.of_except_bind_ok hrest
  exact requireDenom_eq_ok.1 hdenom

variable {cfg : Config} {hrp : String} {v : Vault Balances} {a b : Settlement} {e x : Escrow}

/-- A request that ends an escrow is about the route of that escrow. -/
theorem route_of_target (h : IsSound v.store) (hcheck : a.check cfg.hrp = .ok ())
    (htarget : a.target cfg v = .ok e) : a.route? v.store = some (e.chain, e.amount.denom) := by
  cases a with
  | cancel m =>
      obtain ⟨hstored, -, hindex⟩ := h.wellKeyed.pendingOnRoute (of_target_cancel htarget).1
      obtain ⟨hchain, hdenom⟩ := (Store.Key.route_inj (validDenom_of_check hcheck)
        (h.kept hstored).denom).1 (h.route_eq hstored hindex)
      rw [route?, hchain, hdenom]
  | claim m =>
      rw [route?, (of_target_claim htarget).1]

/-! ## One settlement after another -/

theorem pendingOnRoute_settled_other {s : Store} (h : IsSound s) (he : Stored s e)
    {chain denom : String} (hdenom : Coin.validDenom denom) (hother : ¬ e.OnRoute chain denom)
    (status : Status) :
    pendingOnRoute (Ledger.entered (e.settle status) s) chain denom =
      pendingOnRoute s chain denom := by
  unfold pendingOnRoute
  rw [h.byRoute_settled_other he hdenom hother]

/-- A request finds the same when an escrow on another route has been ended before. -/
theorem target_settled_other {v' : Vault Balances} (h : IsSound v.store)
    (hcheck : a.check cfg.hrp = .ok ()) (he : Stored v.store e)
    (hroute : (e.chain, e.amount.denom) ∉ a.route? v.store) {status : Status}
    (hstore : v'.store = Ledger.entered (e.settle status) v.store)
    (hholder : v'.holder cfg = v.holder cfg) : a.target cfg v' = a.target cfg v := by
  cases a with
  | cancel m =>
      have hother : ¬ e.OnRoute m.chain m.denom := by
        rintro ⟨hchain, hdenom⟩
        exact hroute (by rw [route?, hchain, hdenom]; rfl)
      simp only [target, hstore, hholder, Depositors.find_entered,
        pendingOnRoute_settled_other h he (validDenom_of_check hcheck) hother]
  | claim m =>
      -- A claim that names the escrow would be about its route.
      have hother : m.escrowId ≠ e.id := by
        intro hid
        exact hroute (by rw [route?, hid, he.byId]; rfl)
      simp only [target, hstore, Ledger.byId_settled_other v.store hother]

theorem target_after_other (h : Payable cfg hrp v) (ha : a.check cfg.hrp = .ok ())
    (hb : b.check cfg.hrp = .ok ()) (hapart : Apart v.store a b) :
    a.target cfg ((b.run cfg).after v) = a.target cfg v := by
  have hsettled := settled h b
  cases htarget : b.target cfg v with
  | error f =>
      have hrun : b.run cfg v = .error f v := by
        rw [run_eq, htarget]
      rw [Operation.after_error hrun]
  | ok e =>
      have hstore := hsettled.store
      rw [htarget] at hstore
      have hroute := route_of_target h.sound hb htarget
      refine target_settled_other h.sound ha (stored_of_target h.sound htarget).1 ?_ hstore
        hsettled.holder
      exact hapart.symm _ hroute

/-- What two requests that are not about the same route write can be written in either order. -/
theorem written_comm (h : IsSound v.store) (ha : a.check cfg.hrp = .ok ())
    (hb : b.check cfg.hrp = .ok ()) (hapart : Apart v.store a b) :
    b.written (a.written v.store (a.target cfg v)) (b.target cfg v) =
      a.written (b.written v.store (b.target cfg v)) (a.target cfg v) := by
  cases hfirst : a.target cfg v with
  | error f => rfl
  | ok e =>
      cases hsecond : b.target cfg v with
      | error f => rfl
      | ok x =>
          obtain ⟨he, -⟩ := stored_of_target h hfirst
          obtain ⟨hx, -⟩ := stored_of_target h hsecond
          have hroutes : (e.chain, e.amount.denom) ≠ (x.chain, x.amount.denom) := by
            intro hsame
            have hroute := route_of_target h hb hsecond
            rw [← hsame] at hroute
            exact hapart _ (route_of_target h ha hfirst) hroute
          apply Ledger.entered_comm
          · intro hid
            obtain rfl := hx.eq_of_id he hid
            exact hroutes rfl
          · intro hkey
            obtain ⟨hchain, hdenom⟩ :=
              (Store.Key.route_inj (h.kept he).denom (h.kept hx).denom).1 hkey
            exact hroutes (Prod.ext hchain hdenom)

/-! ## Two settlements in either order -/

theorem result_after_other (h : Payable cfg hrp v) (ha : a.check cfg.hrp = .ok ())
    (hb : b.check cfg.hrp = .ok ()) (hapart : Apart v.store a b) :
    (a.run cfg).result ((b.run cfg).after v) = (a.run cfg).result v := by
  rw [(settled (payable_after h b) a).result, target_after_other h ha hb hapart,
    (settled h a).result]

theorem store_after_both (h : Payable cfg hrp v) (ha : a.check cfg.hrp = .ok ())
    (hb : b.check cfg.hrp = .ok ()) (hapart : Apart v.store a b) :
    ((b.run cfg).after ((a.run cfg).after v)).store =
      b.written (a.written v.store (a.target cfg v)) (b.target cfg v) := by
  rw [(settled (payable_after h a) b).store, target_after_other h hb ha hapart.symm,
    (settled h a).store]

theorem balance_after_both (h : Payable cfg hrp v) (ha : a.check cfg.hrp = .ok ())
    (hb : b.check cfg.hrp = .ok ()) (hapart : Apart v.store a b) (account : Address)
    (denom : String) :
    ((((b.run cfg).after ((a.run cfg).after v)).bank.balance account denom).val : Int) =
      (v.bank.balance account denom).val +
        a.paid (v.holder cfg) account denom (a.target cfg v) +
        b.paid (v.holder cfg) account denom (b.target cfg v) := by
  rw [(settled (payable_after h a) b).balance, target_after_other h hb ha hapart.symm,
    (settled h a).holder, (settled h a).balance]

end Settlement

open Settlement

/-- Of two requests on different routes, each ends in the same way whether the other came before it
or not, and once both have been made, the records and all balances are the same in either order. -/
theorem settlements_commute {cfg : Config} {bank : Balances} {v : Vault Balances}
    {a b : Settlement} (hsupply : ∀ denom, bank.supply denom < Amount.limit)
    (hreachable : Reachable cfg bank v) (ha : a.check cfg.hrp = .ok ())
    (hb : b.check cfg.hrp = .ok ()) (hapart : Apart v.store a b) :
    (a.run cfg).result ((b.run cfg).after v) = (a.run cfg).result v ∧
    (b.run cfg).result ((a.run cfg).after v) = (b.run cfg).result v ∧
    ((b.run cfg).after ((a.run cfg).after v)).store =
      ((a.run cfg).after ((b.run cfg).after v)).store ∧
    ∀ account denom,
      ((b.run cfg).after ((a.run cfg).after v)).bank.balance account denom =
        ((a.run cfg).after ((b.run cfg).after v)).bank.balance account denom := by
  have h := hreachable.payable hsupply
  refine ⟨result_after_other h ha hb hapart, result_after_other h hb ha hapart.symm, ?_, ?_⟩
  · calc ((b.run cfg).after ((a.run cfg).after v)).store
        = b.written (a.written v.store (a.target cfg v)) (b.target cfg v) :=
          store_after_both h ha hb hapart
      _ = a.written (b.written v.store (b.target cfg v)) (a.target cfg v) :=
          written_comm h.sound ha hb hapart
      _ = ((a.run cfg).after ((b.run cfg).after v)).store :=
          (store_after_both h hb ha hapart.symm).symm
  · intro account denom
    have hfirst := balance_after_both h ha hb hapart account denom
    have hsecond := balance_after_both h hb ha hapart.symm account denom
    apply Amount.ext
    omega

/-- The refund of one escrow beside a claim of the other, and beside its refund. -/
theorem settlements_commute_two_refunds :
    let alice := "maany190vqdjtlpcq27xslcveglfmr4ynfwg7g9637yr"
    let bob := "maany1sxmr0k8u6trd5c6eu6trzyapzux7090y5aayfr"
    let coin : Coin := ⟨"umaany", ⟨100, by decide⟩⟩
    let bank := (Balances.empty "maany").set alice ⟨"umaany", ⟨200, by decide⟩⟩
    let v := (Action.initiate ⟨alice, "dex-2", coin, "", 0, 0⟩ ⟨by decide, by decide⟩).after {}
      ((Action.initiate ⟨alice, "dex-1", coin, "", 0, 0⟩ ⟨by decide, by decide⟩).after {}
        ⟨.empty, bank⟩)
    let a := Settlement.cancel ⟨alice, "dex-1", "umaany"⟩
    let b := Settlement.claim ⟨bob, "2", "dex-2"⟩
    let c := Settlement.cancel ⟨alice, "dex-2", "umaany"⟩
    (a.route? v.store = some ("dex-1", "umaany") ∧ b.route? v.store = some ("dex-2", "umaany")) ∧
      ((a.run {}).result v).isOk ∧ ((b.run {}).result v).isOk ∧ ((c.run {}).result v).isOk ∧
      (a.run {}).result ((b.run {}).after v) = (a.run {}).result v ∧
      ((b.run {}).after ((a.run {}).after v)).store =
        ((a.run {}).after ((b.run {}).after v)).store ∧
      (c.run {}).result ((a.run {}).after v) = (c.run {}).result v ∧
      ∀ account denom,
        ((c.run {}).after ((a.run {}).after v)).bank.balance account denom =
          ((a.run {}).after ((c.run {}).after v)).bank.balance account denom := by
  intro alice bob coin bank v a b c
  have hsupply : ∀ denom, bank.supply denom < Amount.limit := by
    intro denom
    exact Nat.lt_of_le_of_lt (Balances.supply_le_total bank denom) (by decide +kernel)
  have hreachable : Reachable {} bank v := by
    have hcustody : Address.ofModule bank.hrp ({} : Config).moduleName =
        .ok "maany18y7xpnypjny4k23vfxn8f2rsaltv2sxzy55qz0" := by
      decide +kernel
    have hother : ∀ custody, Address.ofModule bank.hrp ({} : Config).moduleName = .ok custody →
        alice ≠ custody := by
      intro custody h
      rw [hcustody] at h
      cases h
      decide
    exact .act (.act .start _ hother) _ hother
  have hchecks : a.check "maany" = .ok () ∧ b.check "maany" = .ok () ∧
      c.check "maany" = .ok () := by
    decide +kernel
  have hrun : (a.route? v.store = some ("dex-1", "umaany") ∧
      b.route? v.store = some ("dex-2", "umaany")) ∧
      ((a.run {}).result v).isOk ∧ ((b.run {}).result v).isOk ∧ ((c.run {}).result v).isOk ∧
      Apart v.store a b ∧ Apart v.store a c := by
    decide +kernel
  obtain ⟨hroutes, hrefund, hclaim, hother, hfirst, hsecond⟩ := hrun
  have hclaimed := settlements_commute hsupply hreachable hchecks.1 hchecks.2.1 hfirst
  have hrefunded := settlements_commute hsupply hreachable hchecks.1 hchecks.2.2 hsecond
  exact ⟨hroutes, hrefund, hclaim, hother, hclaimed.1, hclaimed.2.2.1, hrefunded.2.1,
    hrefunded.2.2.2⟩

end Custody.Vault
