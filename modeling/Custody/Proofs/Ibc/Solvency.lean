import Mathlib.Control.Monad.Basic
import Custody.Proofs.Bank.Balances
import Custody.Proofs.Ibc.Run
import Custody.Proofs.Ledger.Outstanding

/-!
# Custody stays solvent

Whatever happens to a world, its custody account holds at least what the escrows on record that are
pending or claimed add up to.
-/

namespace Custody

/-- The custody account covers all that is outstanding, and the records can be relied on. -/
structure Backed (hrp : String) (custody : Address) (v : Vault Balances) : Prop where
  hrp : v.bank.hrp = hrp
  records : Ledger.WellKeyed v.store
  covered : ∀ denom, Ledger.outstanding v.store denom ≤ (v.bank.balance custody denom).val

namespace Backed

variable {cfg : Config} {hrp : String} {custody : Address} {v : Vault Balances}

theorem holder (h : Backed hrp custody v)
    (hcustody : Address.ofModule hrp cfg.moduleName = .ok custody) {account : Address}
    (hholder : v.holder cfg = .ok account) : account = custody :=
  Balances.moduleAddress_eq_ok hholder (h.hrp ▸ hcustody)

/-- Funds that move between other accounts, or into custody, leave it covered. -/
theorem moved (h : Backed hrp custody v) {source target : Address} {c : Coin} {bank : Balances}
    (hsend : Custodian.send v.bank source target c = .ok bank) (hsource : source ≠ custody) :
    Backed hrp custody { v with bank } where
  hrp := (Balances.hrp_of_send hsend).trans h.hrp
  records := h.records
  covered denom := Nat.le_trans (h.covered denom)
    (Balances.balance_le_of_send hsend (Ne.symm hsource) denom)

theorem written (h : Backed hrp custody v) {s : Store} (hsame : Ledger.Same s v.store) :
    Backed hrp custody { v with store := s } where
  hrp := h.hrp
  records := h.records.congr hsame
  covered denom := by
    rw [hsame.outstanding denom]
    exact h.covered denom

theorem initiate (h : Backed hrp custody v)
    (hcustody : Address.ofModule hrp cfg.moduleName = .ok custody) {m : Initiate}
    (hmemory : m.Addressable) (hsender : m.sender ≠ custody) :
    Backed hrp custody ((Vault.initiate cfg m).after v) := by
  have houtcome := Vault.initiate_outcome cfg m v
  unfold Operation.after
  generalize Vault.initiate cfg m v = r at houtcome
  cases houtcome with
  | refused e => exact h
  | stranded e hholder hsend => exact h.moved hsend hsender
  | @opened account bank n hcoin hholder hsend hlast hn =>
      obtain ⟨hdenom, -⟩ := Coin.of_check hcoin
      have hstored := Ledger.Stored.opened v.store hmemory hdenom hn
      have haccount := h.holder hcustody hholder
      subst haccount
      refine ⟨(Balances.hrp_of_send hsend).trans h.hrp, h.records.opened hstored, ?_⟩
      intro denom
      have hadded := Ledger.outstanding_opened_le hstored denom
      have hcovered := h.covered denom
      have hmoved := Balances.balance_of_send hsend account denom
      have hsource : Balances.share m.amount m.sender account denom = 0 :=
        Balances.share_other fun hboth => hsender hboth.1.symm
      have htarget := Balances.share_account m.amount account denom
      simp only
      omega

theorem cancel (h : Backed hrp custody v)
    (hcustody : Address.ofModule hrp cfg.moduleName = .ok custody) (m : Cancel) :
    Backed hrp custody ((Vault.cancel cfg m).after v) := by
  have houtcome := Vault.cancel_outcome cfg m v
  unfold Operation.after
  generalize Vault.cancel cfg m v = r at houtcome
  cases houtcome with
  | refused he => exact h
  | homeless hholder => exact h
  | unpaid hfound hholder hsend => exact h
  | halfway hfound hholder hsend hid =>
      obtain ⟨hstored, -, -⟩ := h.records.pendingOnRoute hfound
      exact absurd hid hstored.id_ne
  | @settled x account bank hfound howner hholder hsend hid =>
      obtain ⟨hstored, hpending, -⟩ := h.records.pendingOnRoute hfound
      have haccount := h.holder hcustody hholder
      subst haccount
      refine ⟨(Balances.hrp_of_send hsend).trans h.hrp, h.records.settle hstored .canceled, ?_⟩
      intro denom
      have hfreed := Ledger.outstanding_canceled hstored hpending denom
      have hcovered := h.covered denom
      have hmoved := Balances.balance_of_send hsend account denom
      have hsource := Balances.share_account x.amount account denom
      simp only
      omega

theorem claim (h : Backed hrp custody v) (m : Claim) :
    Backed hrp custody ((Vault.claim m).after v) := by
  have houtcome := Vault.claim_outcome m v
  unfold Operation.after
  generalize Vault.claim m v = r at houtcome
  cases houtcome with
  | refused e => exact h
  | halfway hfound hpending hid =>
      obtain ⟨hstored, -⟩ := h.records.byId_some hfound
      exact absurd hid hstored.id_ne
  | settled hfound hpending hid =>
      obtain ⟨hstored, -⟩ := h.records.byId_some hfound
      refine ⟨h.hrp, h.records.settle hstored .claimed, ?_⟩
      intro denom
      rw [Ledger.outstanding_claimed hstored hpending denom]
      exact h.covered denom

theorem holder_eq (h : Backed hrp custody v)
    (hcustody : Address.ofModule hrp cfg.moduleName = .ok custody) :
    v.holder cfg = .ok custody := by
  change (Address.ofModule v.bank.hrp cfg.moduleName).mapError _ = _
  rw [h.hrp, hcustody]
  rfl

/-- The funds behind an escrow that is pending are there. -/
theorem covers (h : Backed hrp custody v) {e : Escrow} (he : Ledger.Stored v.store e)
    (hpending : e.status = .pending) : v.bank.Covers custody e.amount := by
  have hfreed := Ledger.outstanding_canceled he hpending e.amount.denom
  rw [if_pos rfl] at hfreed
  have hcovered := h.covered e.amount.denom
  unfold Balances.Covers
  omega

/-- Canceling is not refused for lack of funds. -/
theorem cancel_result (h : Backed hrp custody v)
    (hcustody : Address.ofModule hrp cfg.moduleName = .ok custody) (m : Cancel)
    (available : Amount) (required : Coin) : (Vault.cancel cfg m).result v ≠
      .error (.payment (.insufficient available required)) := by
  have houtcome := Vault.cancel_outcome cfg m v
  unfold Operation.result
  generalize Vault.cancel cfg m v = r at houtcome
  intro hresult
  cases houtcome with
  | refused he =>
      cases hresult
      exact he trivial
  | homeless hholder =>
      cases hresult
      rw [h.holder_eq hcustody] at hholder
      cases hholder
  | @unpaid x account e hfound hholder hsend =>
      cases hresult
      obtain ⟨hstored, hpending, -⟩ := h.records.pendingOnRoute hfound
      have haccount := h.holder hcustody hholder
      subst haccount
      exact Balances.send_insufficient hsend (h.covers hstored hpending)
  | halfway hfound hholder hsend hid => cases hresult
  | settled hfound howner hholder hsend hid => cases hresult

end Backed

namespace Ibc

variable {ω : Type}

/-- The steps that the custody account takes no part in as a payer: it opens no escrows itself, and
no packet comes over a channel whose escrow account it is. -/
def Step.ApartFrom (custody : Address) (cfg : Config) : Step → Prop
  | .initiate m _ => m.sender ≠ custody
  | .callback _ (.receive p _) =>
    Address.ofChannelEscrow cfg.hrp p.destination.port p.destination.channel ≠ .ok custody
  | _ => True

instance (custody : Address) (cfg : Config) : DecidablePred (Step.ApartFrom custody cfg)
  | .initiate m _ => inferInstanceAs (Decidable (m.sender ≠ custody))
  | .cancel _ => .isTrue trivial
  | .claim _ => .isTrue trivial
  | .callback _ (.receive p _) => inferInstanceAs (Decidable
      (Address.ofChannelEscrow cfg.hrp p.destination.port p.destination.channel ≠ .ok custody))
  | .callback _ (.openInit _) => .isTrue trivial
  | .callback _ (.openTry _) => .isTrue trivial
  | .callback _ (.openAck _) => .isTrue trivial
  | .callback _ (.openConfirm _) => .isTrue trivial
  | .callback _ (.closeInit _) => .isTrue trivial
  | .callback _ (.closeConfirm _) => .isTrue trivial
  | .callback _ (.acknowledge _ _ _) => .isTrue trivial
  | .callback _ (.timeout _ _) => .isTrue trivial

variable {cfg : Config} {app : Application Balances ω} {hrp : String} {custody : Address}

theorem backed_callback (happ : Bystander app) {layers : List Layer} {c : Callback}
    (hapart : (Step.callback layers c).ApartFrom custody cfg) :
    Operation.Keeps (fun w => Backed hrp custody w.vault) (stack cfg layers app c) := by
  apply keeps_stack
  · refine ⟨fun w requests hw => hw, fun w s hsame hw => hw.written hsame, ?_⟩
    intro w p relayer escrow receiver coin bank hc hescrow hsend hw
    subst hc
    apply hw.moved hsend
    rintro rfl
    exact hapart hescrow
  · intro w hw
    have hstore := hw.written (happ.ledger c w)
    rw [← happ.bank c w] at hstore
    exact hstore

theorem backed_step (happ : Bystander app)
    (hcustody : Address.ofModule hrp cfg.moduleName = .ok custody) {step : Step}
    (hapart : step.ApartFrom custody cfg) (w : World Balances ω) (hw : Backed hrp custody w.vault) :
    Backed hrp custody (step.after cfg app w).vault := by
  cases step with
  | initiate m hmemory =>
      exact keeps_onVault (fun v hv => hv.initiate hcustody hmemory hapart) w hw
  | cancel m => exact keeps_onVault (fun v hv => hv.cancel hcustody m) w hw
  | claim m => exact keeps_onVault (fun v hv => hv.claim m) w hw
  | callback layers c => exact backed_callback happ hapart w hw

/-- From any world without escrows, whatever its balances: after any steps, the custody account
holds at least what is outstanding, and a cancellation does not fail for lack of funds. -/
theorem custody_solvent (happ : Bystander app) {w : World Balances ω}
    (hempty : Ledger.records w.vault.store none = [])
    (hcustody : Address.ofModule w.vault.bank.hrp cfg.moduleName = .ok custody) {steps : List Step}
    (hapart : ∀ step ∈ steps, step.ApartFrom custody cfg) :
    (∀ denom, Ledger.outstanding (run cfg app steps w).vault.store denom ≤
      ((run cfg app steps w).vault.bank.balance custody denom).val) ∧
    ∀ m available required, (Vault.cancel cfg m).result (run cfg app steps w).vault ≠
      .error (.payment (.insufficient available required)) := by
  have hstart : Backed w.vault.bank.hrp custody w.vault := by
    refine ⟨rfl, Ledger.wellKeyed_of_records hempty, ?_⟩
    intro denom
    rw [Ledger.outstanding_of_records hempty]
    exact Nat.zero_le _
  have hbacked : Backed w.vault.bank.hrp custody (run cfg app steps w).vault := by
    apply run_keeps (P := fun w' => Backed w.vault.bank.hrp custody w'.vault) _ hstart
    intro step hstep w' hw'
    exact backed_step happ hcustody (hapart step hstep) w' hw'
  exact ⟨hbacked.covered, hbacked.cancel_result hcustody⟩

theorem custody_solvent_one_deposit :
    let sender := "maany190vqdjtlpcq27xslcveglfmr4ynfwg7g9637yr"
    let custody := "maany18y7xpnypjny4k23vfxn8f2rsaltv2sxzy55qz0"
    let coin : Coin := ⟨"umaany", ⟨100, by decide⟩⟩
    let w : World Balances (List Callback) :=
      ⟨⟨.empty, (Balances.empty "maany").set sender coin⟩, [], []⟩
    let steps := [
      Step.initiate ⟨sender, "dex-1", coin, "", 0, 0⟩ ⟨by decide, by decide⟩,
      Step.callback [.transfer ({} : Registry).directory]
        (.receive ⟨⟨"transfer", "channel-7"⟩, ⟨"transfer", "channel-0"⟩, 1, []⟩ "relayer")]
    let after := run {} (recorder false) steps w
    Ledger.outstanding after.vault.store "umaany" = 100 ∧
      Ledger.outstanding after.vault.store "umaany" ≤
        (after.vault.bank.balance custody "umaany").val := by
  intro sender custody coin w steps after
  refine ⟨by decide +kernel, ?_⟩
  exact (custody_solvent (bystander_recorder false) rfl (by decide +kernel)
    (by decide +kernel)).1 "umaany"

end Ibc

end Custody
