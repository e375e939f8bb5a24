import Custody.Contract.Basic
import Custody.Proofs.Escrow.Outcome

/-!
# Failures over addresses

A call on the contract fails over an address only if it gives one that is not in order. The contract
keeps funds in its own account, so it has no address to make.
-/

namespace Custody

open Operation (Faults Raises)

/-- An address is not in order, or cannot be written. -/
def Error.OfAddress : Error → Prop
  | .invalidAddress _ _ | .internal (.unencodableAddress _) | .payment (.noCustody _) => True
  | _ => False

abbrev Error.NotOfAddress (e : Error) : Prop := ¬ e.OfAddress

theorem Error.OfLookup.notOfAddress {e : Error} (h : e.OfLookup) : e.NotOfAddress := by
  cases e with
  | invalidAddress field why => exact h.elim
  | payment why => exact h.elim
  | internal why =>
      cases why with
      | unencodableAddress why => exact h.elim
      | _ => exact not_false
  | _ => exact not_false

theorem Operation.Faults.notOfAddress {x : Except Error α} (h : Faults Error.OfLookup x) :
    Faults Error.NotOfAddress x := h.mono fun _ hlookup => hlookup.notOfAddress

theorem faults_requireNonBlank (value field : String) :
    Faults Error.NotOfAddress (requireNonBlank value field) := by
  unfold requireNonBlank
  split
  · exact Faults.error not_false
  · exact Faults.ok ()

theorem faults_requireCoin (c : Coin) : Faults Error.NotOfAddress (requireCoin c) :=
  Faults.mapError _ (fun _ => not_false) _

theorem faults_requireDenom (denom : String) : Faults Error.NotOfAddress (requireDenom denom) :=
  Faults.mapError _ (fun _ => not_false) _

theorem faults_requireAddress {hrp address : String}
    (h : Address.validate hrp address = .ok address) :
    Faults Error.NotOfAddress (requireAddress hrp address) := by
  unfold requireAddress
  rw [h]
  exact Faults.ok address

theorem faults_requireField {hrp address : String} (h : Address.validate hrp address = .ok address)
    (field : String) : Faults Error.NotOfAddress (requireField hrp address field) := by
  unfold requireField
  rw [h]
  exact Faults.ok ()

/-! ## Operations on escrows -/

theorem Store.raises_save (key value : Bytes) : Raises Error.NotOfAddress (save key value) := by
  unfold save
  split
  · exact Raises.throw not_false
  · exact Raises.modify _

theorem Ledger.raises_put (e : Escrow) : Raises Error.NotOfAddress (put e) :=
  Raises.bind (Raises.modify _) fun _ => Store.raises_save _ _

theorem Ledger.raises_nextId : Raises Error.NotOfAddress nextId := by
  unfold nextId
  refine Raises.bind (Raises.reading fun s => (faults_lastId s).notOfAddress) ?_
  intro n
  split
  · exact Raises.bind (Raises.modify _) fun _ => Raises.pure _
  · exact Raises.throw not_false

theorem Call.notOfAddress_of_paid {call : Call} {denom : String} {why : PaymentFault}
    (h : call.paid denom = .error why) : (Error.payment why).NotOfAddress := by
  unfold paid at h
  split at h
  · cases h
    exact not_false
  · split at h
    · cases h
      exact not_false
    · split at h
      · cases h
        exact not_false
      · cases h
  · cases h
    exact not_false

namespace AttachedFunds

theorem faults_deposit (b : AttachedFunds) (source : Address) (c : Coin) :
    Faults Error.NotOfAddress (b.deposit source c) := by
  unfold deposit
  split
  · exact Faults.error not_false
  · split
    · exact Faults.error not_false
    · split
      · rename_i why hpaid
        exact Faults.error (Call.notOfAddress_of_paid hpaid)
      · split
        · exact Faults.ok _
        · exact Faults.error not_false

theorem faults_send (b : AttachedFunds) (source target : Address) (c : Coin) :
    Faults Error.NotOfAddress (b.send source target c) := by
  unfold send withdraw
  split
  · exact faults_deposit b source c
  · split
    · exact Faults.error not_false
    · exact Faults.ok _

end AttachedFunds

namespace Vault

theorem raises_custody (cfg : Config) :
    Raises Error.NotOfAddress (custody cfg : Operation (Vault AttachedFunds) Address) :=
  Raises.reading fun _ => Faults.ok _

theorem raises_send (source target : Address) (c : Coin) :
    Raises Error.NotOfAddress (send source target c : Operation (Vault AttachedFunds) Unit) := by
  intro v e v' h
  cases hsend : Custodian.send v.bank source target c with
  | ok bank =>
      rw [send_ok hsend] at h
      cases h
  | error f =>
      rw [send_error hsend] at h
      cases h
      exact AttachedFunds.faults_send v.bank source target c e hsend

variable {cfg : Config}

theorem raises_initiate {m : Initiate} (h : Address.validate cfg.hrp m.sender = .ok m.sender) :
    Raises Error.NotOfAddress (initiate cfg m : Operation (Vault AttachedFunds) String) := by
  refine Raises.bind (Raises.lift (faults_requireCoin _)) fun _ => ?_
  refine Raises.bind (Raises.lift (faults_requireAddress h)) fun sender => ?_
  refine Raises.bind (raises_custody cfg) fun account => ?_
  refine Raises.bind (raises_send _ _ _) fun _ => ?_
  refine Raises.bind (Raises.within Ledger.raises_nextId) fun id => ?_
  refine Raises.bind (Raises.within (Ledger.raises_put _)) fun _ => ?_
  exact Raises.bind (Raises.within (Raises.modify _)) fun _ => Raises.pure _

theorem raises_cancel {m : Cancel} (h : Address.validate cfg.hrp m.sender = .ok m.sender) :
    Raises Error.NotOfAddress (cancel cfg m : Operation (Vault AttachedFunds) Escrow) := by
  unfold cancel
  refine Raises.bind (Raises.lift (faults_requireAddress h)) fun sender => ?_
  refine Raises.bind (Raises.reading fun v =>
    (faults_pendingOnRoute v.store _ _).notOfAddress) fun e => ?_
  refine Raises.bind (Raises.reading fun v =>
    (Depositors.faults_find v.store _).notOfAddress) fun owner => ?_
  split
  · exact Raises.throw not_false
  · refine Raises.bind (raises_custody cfg) fun account => ?_
    refine Raises.bind (raises_send _ _ _) fun _ => ?_
    exact Raises.bind (Raises.within (Ledger.raises_put _)) fun _ => Raises.pure _

theorem raises_claim (m : Claim) :
    Raises Error.NotOfAddress (claim m : Operation (Vault AttachedFunds) Escrow) := by
  unfold claim
  refine Raises.bind (Raises.reading fun v =>
    (Ledger.faults_byId v.store _).notOfAddress) fun found => ?_
  cases found with
  | none => exact Raises.throw not_false
  | some e =>
      simp only
      split
      · exact Raises.throw not_false
      · exact Raises.bind (Raises.within (Ledger.raises_put _)) fun _ => Raises.pure _

end Vault

/-! ## Calls -/

/-- The account that is to receive what an opening sets aside; the other commands name none. -/
def Command.recipient : Command → String
  | .initiate _ _ recipient _ _ => recipient.getD ""
  | _ => ""

namespace Contract

variable {env : Env} {call : Call} {cfg : Config}

theorem raises_withFunds {P : Error → Prop} {x : Operation (Vault AttachedFunds) α}
    (hx : Raises P x) : Raises P (withFunds env call x) := by
  intro s e t h
  unfold withFunds at h
  cases hrun : x ⟨s, { contract := env.contract, call }⟩ with
  | ok a v =>
      rw [hrun] at h
      cases h
  | error f v =>
      rw [hrun] at h
      cases h
      exact hx _ _ _ hrun

theorem faults_requireNoFunds (call : Call) :
    Faults Error.NotOfAddress (requireNoFunds call) := by
  unfold requireNoFunds
  split
  · exact Faults.ok ()
  · exact Faults.error not_false

theorem raises_initiate {m : Initiate} (hsender : Address.validate cfg.hrp m.sender = .ok m.sender)
    (hrecipient : m.recipient = "" ∨
      Address.validate cfg.hrp m.recipient = .ok m.recipient) :
    Raises Error.NotOfAddress (initiate env call cfg m) := by
  have hcheck : Faults Error.NotOfAddress (m.check cfg.hrp) := by
    unfold Initiate.check
    refine Faults.bind (faults_requireField hsender _) fun _ => ?_
    refine Faults.bind (faults_requireNonBlank _ _) fun _ => ?_
    refine Faults.bind (faults_requireCoin _) fun _ => ?_
    split
    · exact Faults.ok ()
    · rename_i hnamed
      exact faults_requireField (hrecipient.resolve_left hnamed) _
  refine Raises.bind (Raises.lift hcheck) fun _ => ?_
  exact Raises.bind (raises_withFunds (Vault.raises_initiate hsender)) fun _ => Raises.pure _

theorem raises_cancel {m : Cancel} (hsender : Address.validate cfg.hrp m.sender = .ok m.sender) :
    Raises Error.NotOfAddress (cancel env call cfg m) := by
  have hcheck : Faults Error.NotOfAddress (m.check cfg.hrp) := by
    unfold Cancel.check
    refine Faults.bind (faults_requireField hsender _) fun _ => ?_
    exact Faults.bind (faults_requireNonBlank _ _) fun _ => faults_requireDenom _
  refine Raises.bind (Raises.lift (faults_requireNoFunds call)) fun _ => ?_
  refine Raises.bind (Raises.lift hcheck) fun _ => ?_
  exact Raises.bind (raises_withFunds (Vault.raises_cancel hsender)) fun _ => Raises.pure _

theorem raises_claim {m : Claim} (hsender : Address.validate cfg.hrp m.sender = .ok m.sender) :
    Raises Error.NotOfAddress (claim env call cfg m) := by
  have hcheck : Faults Error.NotOfAddress (m.check cfg.hrp) := by
    unfold Claim.check
    refine Faults.bind (faults_requireField hsender _) fun _ => ?_
    exact Faults.bind (faults_requireNonBlank _ _) fun _ => faults_requireNonBlank _ _
  refine Raises.bind (Raises.lift (faults_requireNoFunds call)) fun _ => ?_
  refine Raises.bind (Raises.lift hcheck) fun _ => ?_
  exact Raises.bind (raises_withFunds (Vault.raises_claim m)) fun _ => Raises.pure _

/-- A call does not fail over an address, as long as those that it gives are in order. -/
theorem notOfAddress_of_execute {command : Command} {s t : Store} {e : Error}
    (hload : Settings.load s = .ok cfg)
    (hsender : Address.validate cfg.hrp call.sender = .ok call.sender)
    (hrecipient : command.recipient = "" ∨
      Address.validate cfg.hrp command.recipient = .ok command.recipient)
    (h : execute env call command s = .error e t) : e.NotOfAddress := by
  unfold execute at h
  rw [Operation.bind_ok (Operation.reading_ok hload)] at h
  cases command with
  | initiate chain amount recipient expiryHeight expiryTime =>
      exact raises_initiate hsender hrecipient s e t h
  | cancel chain denom => exact raises_cancel hsender s e t h
  | claim escrowId chain => exact raises_claim hsender s e t h

end Contract

end Custody
