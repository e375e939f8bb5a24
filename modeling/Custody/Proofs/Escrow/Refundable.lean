import Mathlib.Control.Monad.Basic
import Custody.Proofs.Bank.Supply
import Custody.Proofs.Escrow.Life
import Custody.Proofs.Ibc.Solvency
import Custody.Proofs.Ledger.Route

/-!
# Refunds of the newest escrow

A route leads to what was last written on it. So the escrow that was opened last on a route can be
canceled while it is pending, unless an older one on the route has been claimed in the meantime:
that points the route back at the older one.
-/

namespace Custody

open Ledger (IsSound Stored)

namespace Vault

open Ledger (Routed)

/-! ## Along a run -/

/-- There is an entry of the kind on the route. -/
def Occurs (kind : Action → Bool) (chain denom : String) (past : List Entry) : Prop :=
  ∃ x ∈ past, kind x.action ∧ x.escrow.OnRoute chain denom

instance (kind : Action → Bool) (chain denom : String) (past : List Entry) :
    Decidable (Occurs kind chain denom past) :=
  inferInstanceAs (Decidable (∃ x ∈ past, kind x.action ∧ x.escrow.OnRoute chain denom))

theorem occurs_append {kind : Action → Bool} {chain denom : String} {past next : List Entry} :
    Occurs kind chain denom (past ++ next) ↔
      Occurs kind chain denom past ∨ Occurs kind chain denom next := by
  simp only [Occurs, List.mem_append, or_and_right, exists_or]

theorem occurs_singleton {kind : Action → Bool} {chain denom : String} {x : Entry} :
    Occurs kind chain denom [x] ↔ kind x.action ∧ x.escrow.OnRoute chain denom := by
  simp only [Occurs, List.mem_singleton, exists_eq_left]

/-- Where the route leads after the entries: to the escrow, or to one that is no longer pending
once there has been a claim. -/
def Leads (s : Store) (chain denom id : String) (past : List Entry) : Prop :=
  ∃ x, Routed s x ∧ x.OnRoute chain denom ∧
    (¬ Occurs Action.claims chain denom past → x.id = id) ∧
    (Occurs Action.claims chain denom past → x.status ≠ .pending)

variable {cfg : Config} {chain denom id : String} {past : List Entry}

theorem Leads.of_kept {s : Store} (h : Leads s chain denom id past) {t : Store} {a : Action}
    {y : Escrow} (hkept : ∀ x, Routed s x → x.OnRoute chain denom → Routed t x)
    (hother : ¬ y.OnRoute chain denom) : Leads t chain denom id (past ++ [⟨a, y⟩]) := by
  obtain ⟨x, hx, hroute, hunclaimed, hclaimed⟩ := h
  have hsame : Occurs Action.claims chain denom (past ++ [⟨a, y⟩]) ↔
      Occurs Action.claims chain denom past := by
    rw [occurs_append, occurs_singleton]
    exact or_iff_left fun h => hother h.2
  refine ⟨x, hkept x hx hroute, hroute, ?_, ?_⟩
  · intro h
    exact hunclaimed fun h' => h (hsame.2 h')
  · intro h
    exact hclaimed (hsame.1 h)

theorem Leads.settle_other {s : Store} (h : Leads s chain denom id past) (hsound : IsSound s)
    {y : Escrow} (hy : Stored s y) (hother : ¬ y.OnRoute chain denom) (status : Status)
    (a : Action) :
    Leads (Ledger.entered (y.settle status) s) chain denom id (past ++ [⟨a, y.settle status⟩]) := by
  refine h.of_kept ?_ hother
  rintro x hx ⟨rfl, rfl⟩
  exact hx.settle_other hsound hy hother status

/-- An action that opens no escrow on the route keeps track of where it leads. -/
theorem leads_after [Custodian β] {v : Vault β} (hsound : IsSound v.store)
    (h : Leads v.store chain denom id past) (a : Action)
    (hunopened : ¬ Occurs Action.opens chain denom (logged? cfg v a).toList) :
    Leads (a.after cfg v).store chain denom id (past ++ (logged? cfg v a).toList) := by
  have heffect := effect cfg hsound.wellKeyed a
  unfold logged? at hunopened ⊢
  generalize a.written? cfg v = written at heffect hunopened ⊢
  generalize a.after cfg v = v' at heffect ⊢
  cases heffect with
  | refused a =>
      rw [Option.map_none, Option.toList_none, List.append_nil]
      exact h
  | stranded hholder hsend =>
      rw [Option.map_none, Option.toList_none, List.append_nil]
      exact h
  | @opened m inMemory account bank n hcoin hsender hholder hsend hlast hn =>
      rw [Option.map_some, Option.toList_some] at hunopened ⊢
      have hother : ¬ (m.escrow (toString (n + 1))).OnRoute chain denom := by
        intro hroute
        exact hunopened (occurs_singleton.2 ⟨rfl, hroute⟩)
      apply h.of_kept _ hother
      rintro x hx ⟨rfl, rfl⟩
      exact hx.opened_other hsound hlast (Coin.of_check hcoin).1 hother
  | @canceled c y account bank hy hpending hrouted howner hholder hsend =>
      rw [Option.map_some, Option.toList_some]
      by_cases hroute : y.OnRoute chain denom
      · -- The route leads to what is canceled, so nothing on it has been claimed.
        obtain ⟨x, hx, hxroute, hunclaimed, hclaimed⟩ := h
        obtain ⟨rfl, rfl⟩ := hxroute
        obtain rfl := hx.eq (hsound.routed hy hrouted) hroute
        have hnone : ¬ Occurs Action.claims y.chain y.amount.denom past :=
          fun h => hclaimed h hpending
        refine ⟨_, hy.routed_settle .canceled, hroute, fun _ => hunclaimed hnone, ?_⟩
        intro _
        exact Status.noConfusion
      · exact h.settle_other hsound hy hroute .canceled (.cancel c)
  | @claimed c y hy hpending hid =>
      rw [Option.map_some, Option.toList_some]
      by_cases hroute : y.OnRoute chain denom
      · have hsome : Occurs Action.claims chain denom
            (past ++ [⟨.claim c, y.settle .claimed⟩]) :=
          occurs_append.2 (.inr (occurs_singleton.2 ⟨rfl, hroute⟩))
        refine ⟨_, hy.routed_settle .claimed, hroute, fun h => absurd hsome h, ?_⟩
        intro _
        exact Status.noConfusion
      · exact h.settle_other hsound hy hroute .claimed (.claim c)

theorem leads_run [Custodian β] {v : Vault β} (hsound : IsSound v.store)
    (h : Leads v.store chain denom id []) {actions : List Action}
    (hunopened : ¬ Occurs Action.opens chain denom (log cfg actions v)) :
    Leads (run cfg actions v).store chain denom id (log cfg actions v) := by
  have hall : IsSound (run cfg actions v).store ∧
      (¬ Occurs Action.opens chain denom ([] ++ log cfg actions v) →
        Leads (run cfg actions v).store chain denom id ([] ++ log cfg actions v)) := by
    apply log_induction (P := fun past w => IsSound w.store ∧
      (¬ Occurs Action.opens chain denom past → Leads w.store chain denom id past))
    · rintro past w a ⟨hw, hleads⟩
      refine ⟨isSound_after cfg hw a, ?_⟩
      intro hnone
      rw [occurs_append, not_or] at hnone
      exact leads_after hw (hleads hnone.1) a hnone.2
    · exact ⟨hsound, fun _ => h⟩
  exact hall.2 hunopened

/-! ## Canceling what a route leads to -/

theorem pendingOnRoute_of_routed {s : Store} {e : Escrow} (h : Routed s e) :
    pendingOnRoute s e.chain e.amount.denom =
      if e.status = .pending then .ok e
      else .error (.notFound (.pendingEscrow e.chain e.amount.denom)) := by
  unfold pendingOnRoute
  rw [h.toStored.byRoute h.index]
  rfl

/-- Nothing is found on a route that leads to an escrow that is no longer pending. -/
theorem cancel_of_done [Custodian β] {v : Vault β} {e : Escrow} (h : Routed v.store e)
    (hdone : e.status ≠ .pending) {sender : Address}
    (hsender : requireAddress cfg.hrp sender = .ok sender) :
    Vault.cancel cfg ⟨sender, e.chain, e.amount.denom⟩ v =
      .error (.notFound (.pendingEscrow e.chain e.amount.denom)) v := by
  have hmissing := (pendingOnRoute_of_routed h).trans (if_neg hdone)
  unfold Vault.cancel
  rw [Operation.bind_ok (Operation.lift_ok hsender),
    Operation.bind_error (readingStore_error hmissing)]

/-- The action opens no escrow for the custody account itself. -/
def Action.ApartFrom (custody : Address) : Action → Prop
  | .initiate m _ => m.sender ≠ custody
  | _ => True

instance (custody : Address) : DecidablePred (Action.ApartFrom custody)
  | .initiate m _ => inferInstanceAs (Decidable (m.sender ≠ custody))
  | .cancel _ => .isTrue trivial
  | .claim _ => .isTrue trivial

/-- The records are sound, and the funds behind them can be paid out to anybody. -/
structure Funded (hrp : String) (custody : Address) (v : Vault Balances) : Prop
    extends Backed hrp custody v where
  sound : IsSound v.store
  supply : ∀ denom, v.bank.supply denom < Amount.limit

variable {hrp : String} {custody : Address} {v : Vault Balances}

theorem supply_after (h : IsSound v.store) (a : Action) (denom : String) :
    (a.after cfg v).bank.supply denom = v.bank.supply denom := by
  rcases bank_after cfg h.wellKeyed a with hsame | ⟨source, target, c, hsend⟩
  · rw [hsame]
  · exact Balances.supply_of_send hsend denom

theorem Funded.after (h : Funded hrp custody v)
    (hcustody : Address.ofModule hrp cfg.moduleName = .ok custody) {a : Action}
    (hapart : a.ApartFrom custody) : Funded hrp custody (a.after cfg v) where
  toBacked := by
    cases a with
    | initiate m inMemory => exact h.toBacked.initiate hcustody inMemory hapart
    | cancel m => exact h.toBacked.cancel hcustody m
    | claim m => exact h.toBacked.claim m
  sound := isSound_after cfg h.sound a
  supply denom := by
    rw [supply_after h.sound a denom]
    exact h.supply denom

theorem Funded.run (h : Funded hrp custody v)
    (hcustody : Address.ofModule hrp cfg.moduleName = .ok custody) {actions : List Action}
    (hapart : ∀ a ∈ actions, a.ApartFrom custody) : Funded hrp custody (run cfg actions v) := by
  apply run_induction (P := Funded hrp custody) _ h
  intro a ha w hw
  exact hw.after hcustody (hapart a ha)

theorem Funded.start {bank : Balances} (hsupply : ∀ denom, bank.supply denom < Amount.limit) :
    Funded bank.hrp custody ⟨.empty, bank⟩ where
  hrp := rfl
  records := Ledger.wellKeyed_of_records rfl
  covered denom := by
    rw [Ledger.outstanding_of_records rfl]
    exact Nat.zero_le _
  sound := ⟨0, .empty⟩
  supply := hsupply

theorem Funded.cancel_of_pending (h : Funded hrp custody v)
    (hcustody : Address.ofModule hrp cfg.moduleName = .ok custody) {e : Escrow}
    (he : Routed v.store e) (hpending : e.status = .pending) {sender : Address}
    (hsender : requireAddress cfg.hrp sender = .ok sender)
    (howner : Depositors.find? v.store e.id = .ok (some sender)) :
    ∃ bank, v.bank.send custody sender e.amount = .ok bank ∧
      Vault.cancel cfg ⟨sender, e.chain, e.amount.denom⟩ v =
        .ok (e.settle .canceled) ⟨Ledger.entered (e.settle .canceled) v.store, bank⟩ := by
  obtain ⟨bank, hsend⟩ : ∃ bank, v.bank.send custody sender e.amount = .ok bank :=
    Balances.send_of_supply (h.supply e.amount.denom) (h.covers he.toStored hpending)
  refine ⟨bank, hsend, ?_⟩
  have hfound := (pendingOnRoute_of_routed he).trans (if_pos hpending)
  unfold Vault.cancel
  rw [Operation.bind_ok (Operation.lift_ok hsender), Operation.bind_ok (readingStore_ok hfound),
    Operation.bind_ok (readingStore_ok howner), if_neg (not_not_intro rfl)]
  change refund cfg sender e v = _
  unfold refund
  rw [Operation.bind_ok (custody_ok (h.holder_eq hcustody)), Operation.bind_ok (send_ok hsend)]
  exact mark_run (v := { v with bank }) he.id_ne .canceled

/-! ## The newest escrow of a route -/

variable {m : Initiate}

theorem leads_of_initiate [Custodian β] {v v' : Vault β} (inMemory : m.Addressable)
    (h : Vault.initiate cfg m v = .ok id v') : Leads v'.store m.chain m.amount.denom id [] := by
  have houtcome := initiate_outcome cfg m v
  rw [h] at houtcome
  cases houtcome with
  | @opened account bank n hcoin hholder hsend hlast hn =>
      refine ⟨m.escrow (toString (n + 1)), ⟨?_, ?_⟩, ⟨rfl, rfl⟩, fun _ => rfl, ?_⟩
      · exact .opened v.store inMemory (Coin.of_check hcoin).1 hn
      · exact (Ledger.get_opened_index m (n + 1) v.store _).trans (if_pos rfl)
      · rintro ⟨x, hx, -⟩
        cases hx

/-- In any run from an empty store, with less than the limit of each denomination around: an escrow
that is pending, and newer than all others on its route, is given back to its depositor on request,
unless an escrow on the route has been claimed since it was opened. -/
theorem newest_refundable (cfg : Config) {bank : Balances} {earlier later : List Action}
    {opened : Vault Balances} {e : Escrow}
    (hsupply : ∀ denom, bank.supply denom < Amount.limit)
    (hcustody : Address.ofModule bank.hrp cfg.moduleName = .ok custody)
    (hapart : ∀ a ∈ earlier ++ later, a.ApartFrom custody) (hsender : m.sender ≠ custody)
    (inMemory : m.Addressable)
    (hopened : Vault.initiate cfg m (run cfg earlier ⟨.empty, bank⟩) = .ok id opened)
    (hnewest : ¬ Occurs Action.opens m.chain m.amount.denom (log cfg later opened))
    (hfound : Ledger.byId (run cfg later opened).store id = .ok (some e))
    (hpending : e.status = .pending) :
    (¬ Occurs Action.claims m.chain m.amount.denom (log cfg later opened) →
      ∃ refunded, Vault.cancel cfg ⟨m.sender, m.chain, m.amount.denom⟩ (run cfg later opened) =
          .ok (e.settle .canceled) refunded ∧
        Ledger.byId refunded.store id = .ok (some (e.settle .canceled)) ∧
        ∀ a denom, (refunded.bank.balance a denom).val + Balances.share e.amount custody a denom =
          ((run cfg later opened).bank.balance a denom).val +
            Balances.share e.amount m.sender a denom) ∧
    (Occurs Action.claims m.chain m.amount.denom (log cfg later opened) →
      Vault.cancel cfg ⟨m.sender, m.chain, m.amount.denom⟩ (run cfg later opened) =
        .error (.notFound (.pendingEscrow m.chain m.amount.denom)) (run cfg later opened)) := by
  have hvalid := requireAddress_of_initiate hopened
  have hbefore : Funded bank.hrp custody (run cfg earlier ⟨.empty, bank⟩) :=
    (Funded.start hsupply).run hcustody fun a ha => hapart a (List.mem_append_left later ha)
  have hafter : (Action.initiate m inMemory).after cfg (run cfg earlier ⟨.empty, bank⟩) = opened :=
    Operation.after_ok hopened
  have hthen : Funded bank.hrp custody opened := by
    rw [← hafter]
    exact hbefore.after hcustody hsender
  have hnow : Funded bank.hrp custody (run cfg later opened) :=
    hthen.run hcustody fun a ha => hapart a (List.mem_append_right earlier ha)
  have hrecords : Records opened m id .pending := by
    rw [← hafter]
    refine (records_of_initiate hbefore.sound inMemory ?_).2
    rw [Operation.result, hopened]
  -- The escrow that was opened is still on record, so it is what is found under its id.
  obtain ⟨status, hkept⟩ := hrecords.run cfg hthen.sound later
  obtain ⟨he, hid⟩ := hnow.sound.wellKeyed.byId_some hfound
  obtain rfl := he.eq_of_id (hkept.stored hnow.sound) hid.symm
  obtain ⟨x, hx, ⟨hchain, hdenom⟩, hunclaimed, hclaimed⟩ :=
    leads_run hthen.sound (leads_of_initiate inMemory hopened) hnewest
  constructor
  · intro hnone
    obtain rfl := he.eq_of_id hx.toStored (hunclaimed hnone)
    obtain ⟨refunded, hsend, hcancel⟩ :=
      hnow.cancel_of_pending hcustody hx hpending hvalid hkept.depositor
    exact ⟨_, hcancel, (hx.toStored.settle .canceled).byId, Balances.balance_of_send hsend⟩
  · intro hsome
    have hrefused := cancel_of_done hx (hclaimed hsome) hvalid
    rw [hchain, hdenom] at hrefused
    exact hrefused

theorem newest_refundable_third :
    let alice := "maany190vqdjtlpcq27xslcveglfmr4ynfwg7g9637yr"
    let bob := "maany1sxmr0k8u6trd5c6eu6trzyapzux7090y5aayfr"
    let coin : Coin := ⟨"umaany", ⟨100, by decide⟩⟩
    let bank := ((Balances.empty "maany").set alice ⟨"umaany", ⟨200, by decide⟩⟩).set bob coin
    let earlier := [
      Action.initiate ⟨bob, "dex-1", coin, "", 0, 0⟩ ⟨by decide, by decide⟩,
      Action.initiate ⟨alice, "dex-2", coin, "", 0, 0⟩ ⟨by decide, by decide⟩]
    let m : Initiate := ⟨alice, "dex-1", coin, "", 7, 9⟩
    let later := [Action.claim ⟨bob, "2", "dex-2"⟩, Action.cancel ⟨bob, "dex-1", "umaany"⟩]
    let opened := (Vault.initiate {} m).after (run {} earlier ⟨.empty, bank⟩)
    let custody := "maany18y7xpnypjny4k23vfxn8f2rsaltv2sxzy55qz0"
    Ledger.byId (run {} later opened).store "3" = .ok (some (m.escrow "3")) ∧
      ∃ refunded, Vault.cancel {} ⟨alice, "dex-1", "umaany"⟩ (run {} later opened) =
          .ok ((m.escrow "3").settle .canceled) refunded ∧
        Ledger.byId refunded.store "3" = .ok (some ((m.escrow "3").settle .canceled)) ∧
        ∀ a denom, (refunded.bank.balance a denom).val + Balances.share coin custody a denom =
          ((run {} later opened).bank.balance a denom).val +
            Balances.share coin alice a denom := by
  intro alice bob coin bank earlier m later opened custody
  have hsupply : ∀ denom, bank.supply denom < Amount.limit := by
    intro denom
    exact Nat.lt_of_le_of_lt (Balances.supply_le_total bank denom) (by decide +kernel)
  have hrun : (Vault.initiate {} m).result (run {} earlier ⟨.empty, bank⟩) = .ok "3" ∧
      ¬ Occurs Action.opens "dex-1" "umaany" (log {} later opened) ∧
      ¬ Occurs Action.claims "dex-1" "umaany" (log {} later opened) ∧
      Ledger.byId (run {} later opened).store "3" = .ok (some (m.escrow "3")) := by
    decide +kernel
  obtain ⟨hopened, hnewest, hunclaimed, hfound⟩ := hrun
  refine ⟨hfound, (newest_refundable {} hsupply ?_ ?_ ?_ ?_ (Operation.ok_of_result hopened)
    hnewest hfound rfl).1 hunclaimed⟩
  · decide +kernel
  · decide
  · decide
  · exact ⟨by decide, by decide⟩

/-- Claiming an older escrow points the route back at it. The newest one stays pending, and cannot
be canceled. -/
theorem newest_stuck_after_older_claim :
    let alice := "maany190vqdjtlpcq27xslcveglfmr4ynfwg7g9637yr"
    let bob := "maany1sxmr0k8u6trd5c6eu6trzyapzux7090y5aayfr"
    let custody := "maany18y7xpnypjny4k23vfxn8f2rsaltv2sxzy55qz0"
    let coin : Coin := ⟨"umaany", ⟨100, by decide⟩⟩
    let bank := ((Balances.empty "maany").set alice coin).set bob coin
    let earlier := [Action.initiate ⟨bob, "dex-1", coin, "", 0, 0⟩ ⟨by decide, by decide⟩]
    let m : Initiate := ⟨alice, "dex-1", coin, "", 0, 0⟩
    let later := [Action.claim ⟨bob, "1", "dex-1"⟩]
    let opened := (Vault.initiate {} m).after (run {} earlier ⟨.empty, bank⟩)
    let now := run {} later opened
    ((∀ denom, bank.supply denom < Amount.limit) ∧
        Address.ofModule bank.hrp ({} : Config).moduleName = .ok custody ∧
        alice ≠ custody ∧ bob ≠ custody) ∧
      ((Vault.initiate {} m).result (run {} earlier ⟨.empty, bank⟩) = .ok "2" ∧
        ¬ Occurs Action.opens "dex-1" "umaany" (log {} later opened) ∧
        Ledger.byId now.store "2" = .ok (some (m.escrow "2"))) ∧
      (Vault.cancel {} ⟨alice, "dex-1", "umaany"⟩).result now =
        .error (.notFound (.pendingEscrow "dex-1" "umaany")) := by
  intro alice bob custody coin bank earlier m later opened now
  refine ⟨⟨?_, ?_, by decide, by decide⟩, ?_⟩
  · intro denom
    exact Nat.lt_of_le_of_lt (Balances.supply_le_total bank denom) (by decide +kernel)
  · decide +kernel
  · decide +kernel

end Vault

end Custody
