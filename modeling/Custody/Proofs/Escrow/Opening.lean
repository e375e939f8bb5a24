import Mathlib.Control.Monad.Basic
import Custody.Proofs.Bank.Balances
import Custody.Proofs.Escrow.Life
import Custody.Proofs.Ledger.Route

/-!
# Opening an escrow

An opening puts one new escrow on record, makes it the one that its route leads to, and moves its
amount from the sender into custody. Nothing else changes, neither on record nor among the balances.
Only where the custody account is the sender itself are there no funds that could move.
-/

namespace Custody.Vault

open Ledger (IsSound Stored)

variable {cfg : Config} {m : Initiate} {id : String}

section Running

variable {β : Type} [Custodian β] {v : Vault β}

theorem initiate_run {account : Address} {bank : β} {n : Nat} (hcoin : m.amount.check = .ok ())
    (hsender : requireAddress cfg.hrp m.sender = .ok m.sender)
    (hholder : v.holder cfg = .ok account)
    (hsend : Custodian.send v.bank m.sender account m.amount = .ok bank)
    (hlast : Ledger.lastId v.store = .ok n) (hn : n + 1 < UInt64.size) :
    initiate cfg m v = .ok (toString (n + 1)) ⟨opened m (n + 1) v.store, bank⟩ := by
  have hamount : requireCoin m.amount = .ok () := by
    unfold requireCoin
    rw [hcoin]
    rfl
  unfold initiate
  rw [Operation.bind_ok (Operation.lift_ok hamount), Operation.bind_ok (Operation.lift_ok hsender),
    Operation.bind_ok (custody_ok hholder), Operation.bind_ok (send_ok hsend)]
  exact enter_run (v := { v with bank }) hlast hn

end Running

/-! ## Balances -/

/-- What an opening does to the balances when the sender is not the custody account. -/
structure Funds (custody : Address) (m : Initiate) (before after : Balances) : Prop where
  taken : (after.balance m.sender m.amount.denom).val + m.amount.amount.val =
    (before.balance m.sender m.amount.denom).val
  held : (after.balance custody m.amount.denom).val =
    (before.balance custody m.amount.denom).val + m.amount.amount.val
  others : ∀ account denom, (account ≠ m.sender ∧ account ≠ custody) ∨ denom ≠ m.amount.denom →
    after.balance account denom = before.balance account denom

theorem funds_of_send {custody : Address} {before after : Balances} (hother : m.sender ≠ custody)
    (hsend : before.send m.sender custody m.amount = .ok after) : Funds custody m before after where
  taken := Balances.balance_source_of_send hsend hother
  held := Balances.balance_target_of_send hsend hother
  others _ _ hapart := Balances.balance_other_of_send hsend hapart

/-! ## Records -/

/-- What an opening does to the ledger. -/
structure Entered (m : Initiate) (id : String) (before after : Store) : Prop where
  fresh : Ledger.byId before id = .ok none
  byRoute : Ledger.byRoute after m.chain m.amount.denom = Ledger.byId after id
  otherIds : ∀ other, other ≠ id → Ledger.byId after other = Ledger.byId before other ∧
    Depositors.find? after other = Depositors.find? before other
  otherRoutes : ∀ chain denom, Coin.validDenom denom →
    ¬ (chain = m.chain ∧ denom = m.amount.denom) →
      Ledger.byRoute after chain denom = Ledger.byRoute before chain denom

theorem entered_opened {s : Store} {n : Nat} (h : IsSound s) (hlast : Ledger.lastId s = .ok n)
    (hn : n + 1 < UInt64.size) (inMemory : m.Addressable) (hcoin : m.amount.check = .ok ()) :
    Entered m (toString (n + 1)) s (opened m (n + 1) s) := by
  have hvalid := (Coin.of_check hcoin).1
  have hstored := Stored.opened s inMemory hvalid hn
  refine ⟨?_, ?_, ?_, ?_⟩
  · unfold Ledger.byId Ledger.raw
    rw [h.fresh hlast]
  · have hindex := (Ledger.get_opened_index m (n + 1) s _).trans (if_pos rfl)
    exact (hstored.byRoute hindex).trans hstored.byId.symm
  · intro other hother
    exact ⟨Ledger.byId_opened_other s hother,
      (Depositors.find_opened m (n + 1) s other).trans (if_neg hother)⟩
  · intro chain denom hdenom hother
    refine h.byRoute_opened_other hlast hvalid hdenom ?_
    rintro ⟨hchain, hname⟩
    exact hother ⟨hchain.symm, hname.symm⟩

/-! ## Openings -/

theorem holder_eq_ok {v : Vault Balances} {account : Address} (h : v.holder cfg = .ok account) :
    Address.ofModule v.bank.hrp cfg.moduleName = .ok account := by
  change (Address.ofModule v.bank.hrp cfg.moduleName).mapError _ = _ at h
  cases hcustody : Address.ofModule v.bank.hrp cfg.moduleName with
  | error why =>
      rw [hcustody] at h
      cases h
  | ok custody =>
      rw [hcustody] at h
      cases h
      rfl

theorem initiate_isOk_iff {v : Vault Balances} {n : Nat} (hlast : Ledger.lastId v.store = .ok n)
    (hn : n + 1 < UInt64.size) :
    (∃ id v', initiate cfg m v = .ok id v') ↔
      m.amount.check = .ok () ∧ requireAddress cfg.hrp m.sender = .ok m.sender ∧
        ∃ custody, Address.ofModule v.bank.hrp cfg.moduleName = .ok custody ∧
          v.bank.Covers m.sender m.amount ∧ v.bank.Fits m.sender custody m.amount := by
  constructor
  · rintro ⟨id, v', h⟩
    have hsender := requireAddress_of_initiate h
    have houtcome := initiate_outcome cfg m v
    rw [h] at houtcome
    cases houtcome with
    | @opened custody bank k hcoin hholder hsend _ _ =>
        have hcovers : v.bank.Covers m.sender m.amount := (Balances.send_cases hsend).1
        refine ⟨hcoin, hsender, custody, holder_eq_ok hholder, hcovers, ?_⟩
        by_contra hfits
        change v.bank.send m.sender custody m.amount = .ok bank at hsend
        rw [Balances.send_overflow hcovers hfits] at hsend
        cases hsend
  · rintro ⟨hcoin, hsender, custody, hcustody, hcovers, hfits⟩
    have hholder : v.holder cfg = .ok custody := by
      change (Address.ofModule v.bank.hrp cfg.moduleName).mapError _ = _
      rw [hcustody]
      rfl
    obtain ⟨bank, hsend⟩ := Balances.send_of_fits hcovers hfits
    exact ⟨_, _, initiate_run hcoin hsender hholder hsend hlast hn⟩

/-- On a store that some keeper has left behind, with any balances: while ids are left, an opening
succeeds exactly if the message is in order and the sender can pay. A successful one puts the escrow
on record as it was asked for, under a new id, changes no other entry, and moves the amount from the
sender into custody and nothing else. If the sender is the custody account itself, nothing moves. -/
theorem opening_exact (keeper cfg : Config) (past : List Action) (earlier bank : Balances)
    (inMemory : m.Addressable) :
    let s := (run keeper past ⟨.empty, earlier⟩).store
    (∀ n, Ledger.lastId s = .ok n → n + 1 < UInt64.size →
      ((∃ id v', initiate cfg m ⟨s, bank⟩ = .ok id v') ↔
        m.amount.check = .ok () ∧ requireAddress cfg.hrp m.sender = .ok m.sender ∧
          ∃ custody, Address.ofModule bank.hrp cfg.moduleName = .ok custody ∧
            bank.Covers m.sender m.amount ∧ bank.Fits m.sender custody m.amount)) ∧
    ∀ id v', initiate cfg m ⟨s, bank⟩ = .ok id v' →
      Records v' m id .pending ∧ Entered m id s v'.store ∧
        ∃ custody, Address.ofModule bank.hrp cfg.moduleName = .ok custody ∧
          (m.sender ≠ custody → Funds custody m bank v'.bank) ∧
          (m.sender = custody → v'.bank = bank) := by
  intro s
  have hsound : IsSound s := ⟨_, sound_run keeper earlier past⟩
  refine ⟨fun n hlast hn => initiate_isOk_iff (v := ⟨s, bank⟩) hlast hn, ?_⟩
  intro id v' h
  have hopened : (initiate cfg m).result ⟨s, bank⟩ = .ok id := Operation.result_ok h
  have hafter : (Action.initiate m inMemory).after cfg ⟨s, bank⟩ = v' := Operation.after_ok h
  have hrecords := (records_of_initiate (v := ⟨s, bank⟩) hsound inMemory hopened).2
  rw [hafter] at hrecords
  have houtcome := initiate_outcome cfg m ⟨s, bank⟩
  rw [h] at houtcome
  cases houtcome with
  | @opened custody bank' n hcoin hholder hsend hlast hn =>
      refine ⟨hrecords, entered_opened hsound hlast hn inMemory hcoin, custody,
        holder_eq_ok hholder, fun hother => funds_of_send hother hsend, ?_⟩
      intro hself
      obtain ⟨-, ⟨-, hsame⟩ | ⟨hother, -⟩⟩ := Balances.send_cases hsend
      · exact hsame
      · exact absurd hself hother

theorem opening_exact_reused_route :
    let alice := "maany190vqdjtlpcq27xslcveglfmr4ynfwg7g9637yr"
    let bob := "maany1sxmr0k8u6trd5c6eu6trzyapzux7090y5aayfr"
    let custody := "maany18y7xpnypjny4k23vfxn8f2rsaltv2sxzy55qz0"
    let coin : Coin := ⟨"umaany", ⟨100, by decide⟩⟩
    let past := [
      Action.initiate ⟨alice, "dex-1", coin, "", 0, 0⟩ ⟨by decide, by decide⟩,
      Action.initiate ⟨alice, "dex-1", coin, "", 0, 0⟩ ⟨by decide, by decide⟩,
      Action.claim ⟨alice, "1", "dex-1"⟩]
    let earlier := (Balances.empty "maany").set alice ⟨"umaany", ⟨300, by decide⟩⟩
    let bank := ((Balances.empty "maany").set bob ⟨"umaany", ⟨150, by decide⟩⟩).set custody coin
    let m : Initiate := ⟨bob, "dex-1", coin, "", 7, 9⟩
    let s := (run {} past ⟨.empty, earlier⟩).store
    let v := (initiate {} m).after ⟨s, bank⟩
    (initiate {} m).result ⟨s, bank⟩ = .ok "3" ∧ Records v m "3" .pending ∧
      Entered m "3" s v.store ∧ Funds custody m bank v.bank := by
  intro alice bob custody coin past earlier bank m s v
  have hopened : (initiate {} m).result ⟨s, bank⟩ = .ok "3" := by decide +kernel
  obtain ⟨-, hexact⟩ := opening_exact (m := m) {} {} past earlier bank ⟨by decide, by decide⟩
  obtain ⟨hrecords, hentered, account, haccount, hfunds, -⟩ :=
    hexact "3" v (Operation.ok_of_result hopened)
  have hcustody : Address.ofModule bank.hrp ({} : Config).moduleName = .ok custody := by
    decide +kernel
  obtain rfl : account = custody := Except.ok.inj (haccount.symm.trans hcustody)
  exact ⟨hopened, hrecords, hentered, hfunds (by decide)⟩

/-- The custody account opens an escrow for itself out of what it holds for another depositor: two
escrows of 100 are pending, and custody still holds 100. -/
theorem opened_without_funds :
    let alice := "maany190vqdjtlpcq27xslcveglfmr4ynfwg7g9637yr"
    let custody := "maany18y7xpnypjny4k23vfxn8f2rsaltv2sxzy55qz0"
    let coin : Coin := ⟨"umaany", ⟨100, by decide⟩⟩
    let first : Initiate := ⟨alice, "dex-1", coin, "", 0, 0⟩
    let m : Initiate := ⟨custody, "dex-2", coin, "", 0, 0⟩
    let v : Vault Balances := run {} [.initiate first ⟨by decide, by decide⟩]
      ⟨.empty, (Balances.empty "maany").set alice coin⟩
    let v' := (initiate {} m).after v
    (requireAddress "maany" custody = .ok custody ∧
        Address.ofModule v.bank.hrp ({} : Config).moduleName = .ok custody) ∧
      (initiate {} m).result v = .ok "2" ∧
      (Ledger.byId v'.store "1" = .ok (some (first.escrow "1")) ∧
        Ledger.byId v'.store "2" = .ok (some (m.escrow "2"))) ∧
      (v.bank.balance custody "umaany").val = 100 ∧
      (v'.bank.balance custody "umaany").val = 100 := by
  decide +kernel

end Custody.Vault
