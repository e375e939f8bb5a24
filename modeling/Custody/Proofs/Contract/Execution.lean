import Custody.Contract.Basic
import Custody.Proofs.Bank.Attached
import Custody.Proofs.Escrow.Outcome

/-!
# What a successful call does

Each command that succeeds has one effect on the store, on the funds attached and on the transfers
returned.
-/

namespace Custody.Contract

/-- The message that a command to initiate stands for. -/
def initiateMessage (call : Call) (chain : String) (amount : Coin) (recipient : Option String)
    (expiryHeight expiryTime : Option UInt64) : Initiate where
  sender := call.sender
  chain
  amount
  recipient := recipient.getD ""
  expiryHeight := expiryHeight.getD 0
  expiryTime := expiryTime.getD 0

/-- What a successful call has done: what it was, what it found, returned, and left behind. -/
inductive Effect (call : Call) (s : Store) : Command → Response → Store → Prop
  | opened {chain : String} {amount : Coin} {recipient : Option String}
      {expiryHeight expiryTime : Option UInt64} {n : Nat} (hcoin : amount.check = .ok ())
      (hlast : Ledger.lastId s = .ok n) (hn : n + 1 < UInt64.size) (hfunds : call.funds = [amount]) :
      Effect call s (.initiate chain amount recipient expiryHeight expiryTime)
        { transfers := []
          attributes := [
            ("method", "escrow_initial"),
            ("escrow_id", toString (n + 1)),
            ("consumer_chain_id", chain),
            ("amount", amount.text)]
          data := some (Json.encode (InitiateAnswer.mk (toString (n + 1)))) }
        (Vault.opened (initiateMessage call chain amount recipient expiryHeight expiryTime)
          (n + 1) s)
  | refunded {chain denom : String} {e : Escrow} (hfunds : call.funds = [])
      (hfound : Vault.pendingOnRoute s chain denom = .ok e)
      (howner : Depositors.find? s e.id = .ok (some call.sender)) (hid : e.id ≠ "") :
      Effect call s (.cancel chain denom)
        { transfers := [⟨call.sender, [e.amount]⟩]
          attributes := [
            ("method", "cancel_escrow"),
            ("escrow_id", e.id),
            ("consumer_chain_id", e.chain),
            ("amount", e.amount.text)] }
        (Ledger.entered (e.settle .canceled) s)
  | claimed {id chain : String} {e : Escrow} (hfunds : call.funds = [])
      (hfound : Ledger.byId s id = .ok (some e)) (hpending : e.status = .pending)
      (hid : e.id ≠ "") :
      Effect call s (.claim id chain)
        { transfers := []
          attributes := [
            ("method", "mark_escrow_claimed"),
            ("escrow_id", e.id),
            ("consumer_chain_id", chain),
            ("amount", e.amount.text)] }
        (Ledger.entered (e.settle .claimed) s)

theorem of_withFunds_ok {env : Env} {call : Call} {x : Operation (Vault AttachedFunds) α}
    {s t : Store} {a : α} {transfers : List Transfer}
    (h : withFunds env call x s = .ok (a, transfers) t) :
    ∃ bank, x ⟨s, { contract := env.contract, call }⟩ = .ok a ⟨t, bank⟩ ∧
      transfers = bank.queue := by
  unfold withFunds at h
  cases hx : x ⟨s, { contract := env.contract, call }⟩ with
  | ok b v =>
      rw [hx] at h
      cases h
      exact ⟨v.bank, rfl, rfl⟩
  | error e v =>
      rw [hx] at h
      cases h

theorem funds_of_requireNoFunds {call : Call} {u : Unit} (h : requireNoFunds call = .ok u) :
    call.funds = [] := by
  unfold requireNoFunds at h
  split at h
  · assumption
  · cases h

variable {env : Env} {call : Call} {cfg : Config} {s t : Store} {r : Response}

theorem effect_of_initiate {chain : String} {amount : Coin} {recipient : Option String}
    {expiryHeight expiryTime : Option UInt64}
    (h : initiate env call cfg
      (initiateMessage call chain amount recipient expiryHeight expiryTime) s = .ok r t) :
    Effect call s (.initiate chain amount recipient expiryHeight expiryTime) r t := by
  obtain ⟨u, s₁, hcheck, hrest⟩ := Operation.of_bind_ok h
  obtain ⟨-, rfl⟩ := Operation.of_lift_ok hcheck
  obtain ⟨⟨id, transfers⟩, s₂, hfunded, hreply⟩ := Operation.of_bind_ok hrest
  obtain ⟨bank, hrun, rfl⟩ := of_withFunds_ok hfunded
  cases hreply
  have houtcome := Vault.initiate_outcome cfg
    (initiateMessage call chain amount recipient expiryHeight expiryTime)
    (⟨s₁, { contract := env.contract, call }⟩ : Vault AttachedFunds)
  rw [hrun] at houtcome
  cases houtcome with
  | opened hcoin hholder hsend hlast hn =>
      cases hholder
      rcases AttachedFunds.send_ok hsend with ⟨-, -, hfunds, rfl⟩ | ⟨hother, -⟩
      · exact .opened hcoin hlast hn hfunds
      · exact absurd rfl hother

theorem effect_of_cancel {chain denom : String}
    (h : cancel env call cfg { sender := call.sender, chain, denom } s = .ok r t) :
    Effect call s (.cancel chain denom) r t := by
  obtain ⟨u, s₁, hempty, hrest⟩ := Operation.of_bind_ok h
  obtain ⟨hnone, rfl⟩ := Operation.of_lift_ok hempty
  obtain ⟨u', s₂, hcheck, hrest'⟩ := Operation.of_bind_ok hrest
  obtain ⟨-, rfl⟩ := Operation.of_lift_ok hcheck
  obtain ⟨⟨e, transfers⟩, s₃, hfunded, hreply⟩ := Operation.of_bind_ok hrest'
  obtain ⟨bank, hrun, rfl⟩ := of_withFunds_ok hfunded
  cases hreply
  have hfunds := funds_of_requireNoFunds hnone
  have houtcome := Vault.cancel_outcome cfg { sender := call.sender, chain, denom }
    (⟨s₂, { contract := env.contract, call }⟩ : Vault AttachedFunds)
  rw [hrun] at houtcome
  cases houtcome with
  | settled hfound howner hholder hsend hid =>
      rcases AttachedFunds.send_ok hsend with ⟨-, -, hpaid, -⟩ | ⟨-, rfl⟩
      · rw [hfunds] at hpaid
        cases hpaid
      · exact .refunded hfunds hfound howner hid

theorem effect_of_claim {id chain : String}
    (h : claim env call cfg { sender := call.sender, escrowId := id, chain } s = .ok r t) :
    Effect call s (.claim id chain) r t := by
  obtain ⟨u, s₁, hempty, hrest⟩ := Operation.of_bind_ok h
  obtain ⟨hnone, rfl⟩ := Operation.of_lift_ok hempty
  obtain ⟨u', s₂, hcheck, hrest'⟩ := Operation.of_bind_ok hrest
  obtain ⟨-, rfl⟩ := Operation.of_lift_ok hcheck
  obtain ⟨⟨e, transfers⟩, s₃, hfunded, hreply⟩ := Operation.of_bind_ok hrest'
  obtain ⟨bank, hrun, -⟩ := of_withFunds_ok hfunded
  cases hreply
  have hfunds := funds_of_requireNoFunds hnone
  have houtcome := Vault.claim_outcome { sender := call.sender, escrowId := id, chain }
    (⟨s₂, { contract := env.contract, call }⟩ : Vault AttachedFunds)
  rw [hrun] at houtcome
  cases houtcome with
  | @settled x hfound hpending hid => exact .claimed (e := x) hfunds hfound hpending hid

/-- Every call that succeeds has the effect of its command. -/
theorem effect_of_execute {command : Command} (h : execute env call command s = .ok r t) :
    Effect call s command r t := by
  obtain ⟨cfg, s₁, hload, hrun⟩ := Operation.of_bind_ok h
  obtain ⟨-, rfl⟩ := Operation.of_reading_ok hload
  cases command with
  | initiate chain amount recipient expiryHeight expiryTime => exact effect_of_initiate hrun
  | cancel chain denom => exact effect_of_cancel hrun
  | claim id chain => exact effect_of_claim hrun

end Custody.Contract
