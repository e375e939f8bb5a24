import Custody.Proofs.Escrow.Refundable

/-!
# Settlements

Canceling and claiming both end one escrow. Whatever a keeper has been asked to do before, custody
can pay back every escrow that is pending, so what comes of a settlement is decided by the records
alone, and the bank only follows.
-/

namespace Custody.Vault

open Ledger (IsSound Stored)

/-! ## Vaults that can pay -/

variable {cfg : Config} {hrp : String} {v : Vault Balances}

theorem hrp_after (h : IsSound v.store) (a : Action) : (a.after cfg v).bank.hrp = v.bank.hrp := by
  rcases bank_after cfg h.wellKeyed a with hsame | ⟨source, target, c, hsend⟩
  · rw [hsame]
  · exact Balances.hrp_of_send hsend

/-- The records are sound, no balance can grow too large, and if there is a custody account, it
covers what is outstanding. -/
structure Payable (cfg : Config) (hrp : String) (v : Vault Balances) : Prop where
  named : v.bank.hrp = hrp
  sound : IsSound v.store
  supply : ∀ denom, v.bank.supply denom < Amount.limit
  funded : ∀ custody, Address.ofModule hrp cfg.moduleName = .ok custody → Funded hrp custody v

namespace Payable

theorem start {bank : Balances} (hsupply : ∀ denom, bank.supply denom < Amount.limit) :
    Payable cfg bank.hrp ⟨.empty, bank⟩ where
  named := rfl
  sound := ⟨0, .empty⟩
  supply := hsupply
  funded _ _ := Funded.start hsupply

theorem after (h : Payable cfg hrp v) {a : Action}
    (hapart : ∀ custody, Address.ofModule hrp cfg.moduleName = .ok custody → a.ApartFrom custody) :
    Payable cfg hrp (a.after cfg v) where
  named := (hrp_after h.sound a).trans h.named
  sound := isSound_after cfg h.sound a
  supply denom := by
    rw [supply_after h.sound a denom]
    exact h.supply denom
  funded custody hcustody := (h.funded custody hcustody).after hcustody (hapart custody hcustody)

theorem moved (h : Payable cfg hrp v) {source target : Address} {c : Coin} {bank : Balances}
    (hsend : Custodian.send v.bank source target c = .ok bank)
    (hsource : ∀ custody, Address.ofModule hrp cfg.moduleName = .ok custody → source ≠ custody) :
    Payable cfg hrp { v with bank } := by
  have hsupply : ∀ denom, bank.supply denom < Amount.limit := by
    intro denom
    rw [Balances.supply_of_send hsend denom]
    exact h.supply denom
  refine ⟨(Balances.hrp_of_send hsend).trans h.named, h.sound, hsupply, ?_⟩
  intro custody hcustody
  have hmoved := (h.funded custody hcustody).toBacked.moved hsend (hsource custody hcustody)
  exact ⟨hmoved, h.sound, hsupply⟩

theorem send (h : Payable cfg hrp v) {source target : Address} {c : Coin}
    (hsource : ∀ custody, Address.ofModule hrp cfg.moduleName = .ok custody → source ≠ custody) :
    Payable cfg hrp ((Vault.send source target c).after v) := by
  cases hsend : Custodian.send v.bank source target c with
  | error e =>
      rw [Operation.after_error (send_error hsend)]
      exact h
  | ok bank =>
      rw [Operation.after_ok (send_ok hsend)]
      exact h.moved hsend hsource

/-- Whoever funded an escrow that is pending can be paid back. -/
theorem refund_sent (h : Payable cfg hrp v) {custody target : Address} {e : Escrow}
    (hholder : v.holder cfg = .ok custody) (he : Stored v.store e)
    (hpending : e.status = .pending) :
    ∃ bank, v.bank.send custody target e.amount = .ok bank := by
  cases hcustody : Address.ofModule hrp cfg.moduleName with
  | error f =>
      -- Without a custody account there is nothing that could pay.
      change (Address.ofModule v.bank.hrp cfg.moduleName).mapError _ = _ at hholder
      rw [h.named, hcustody] at hholder
      cases hholder
  | ok account =>
      have hfunded := h.funded account hcustody
      obtain rfl := hfunded.toBacked.holder hcustody hholder
      exact Balances.send_of_supply (h.supply e.amount.denom) (hfunded.covers he hpending)

end Payable

/-- What the operations of a keeper lead to, from an empty store. The custody account takes no part
as a payer: it opens no escrows, and nothing is released out of it. -/
inductive Reachable (cfg : Config) (bank : Balances) : Vault Balances → Prop
  | start : Reachable cfg bank ⟨.empty, bank⟩
  | act {v : Vault Balances} (h : Reachable cfg bank v) (a : Action)
      (hapart : ∀ custody, Address.ofModule bank.hrp cfg.moduleName = .ok custody →
        a.ApartFrom custody) : Reachable cfg bank (a.after cfg v)
  | release {v : Vault Balances} (h : Reachable cfg bank v) (source target : Address) (c : Coin)
      (hapart : ∀ custody, Address.ofModule bank.hrp cfg.moduleName = .ok custody →
        source ≠ custody) : Reachable cfg bank ((Vault.send source target c).after v)

theorem Reachable.payable {bank : Balances} (hsupply : ∀ denom, bank.supply denom < Amount.limit)
    (h : Reachable cfg bank v) : Payable cfg bank.hrp v := by
  induction h with
  | start => exact .start hsupply
  | act h a hapart ih => exact ih.after hapart
  | release h source target c hapart ih => exact ih.send hapart

/-! ## What a settlement comes to -/

/-- A request to end an escrow. -/
inductive Settlement where
  | cancel (m : Cancel)
  | claim (m : Claim)

namespace Settlement

def check (hrp : String) : Settlement → Except Error Unit
  | .cancel m => m.check hrp
  | .claim m => m.check hrp

/-- What the escrow becomes. -/
def final : Settlement → Status
  | .cancel _ => .canceled
  | .claim _ => .claimed

def action : Settlement → Action
  | .cancel m => .cancel m
  | .claim m => .claim m

section

variable {β : Type} [Custodian β]

def run (cfg : Config) : Settlement → Operation (Vault β) Escrow
  | .cancel m => Vault.cancel cfg m
  | .claim m => Vault.claim m

theorem after_run (cfg : Config) (a : Settlement) (v : Vault β) :
    (a.run cfg).after v = a.action.after cfg v := by
  cases a <;> rfl

/-- The escrow that is to be ended, or why there is none. -/
def target (cfg : Config) (v : Vault β) : Settlement → Except Error Escrow
  | .cancel m => do
    let sender ← requireAddress cfg.hrp m.sender
    let e ← pendingOnRoute v.store m.chain m.denom
    let owner ← Depositors.find? v.store e.id
    if owner ≠ some sender then throw (.notFound (.pendingEscrow m.chain m.denom))
    else (v.holder cfg).map fun _ => e
  | .claim m => do
    match ← Ledger.byId v.store m.escrowId with
    | none => throw (.notFound (.escrow m.escrowId))
    | some e => if e.status ≠ .pending then throw .unauthorized else return e

/-- What is done with the escrow. -/
def finish (cfg : Config) (e : Escrow) : Settlement → Operation (Vault β) Escrow
  | .cancel m => refund cfg m.sender e
  | .claim _ => mark e .claimed

theorem run_cancel (cfg : Config) (m : Cancel) (v : Vault β) :
    Vault.cancel cfg m v =
      match target cfg v (.cancel m) with
      | .error e => .error e v
      | .ok e => refund cfg m.sender e v := by
  unfold Vault.cancel
  rcases hsender : requireAddress cfg.hrp m.sender with e | sender
  · simp only [target, hsender]
    rfl
  obtain rfl := eq_of_requireAddress hsender
  rw [Operation.bind_ok (Operation.lift_ok rfl)]
  rcases hfound : pendingOnRoute v.store m.chain m.denom with e | x
  · simp only [target, hsender, hfound]
    exact Operation.bind_error (readingStore_error hfound)
  rw [Operation.bind_ok (readingStore_ok hfound)]
  rcases howner : Depositors.find? v.store x.id with e | owner
  · simp only [target, hsender, hfound, howner, bind, Except.bind]
    exact Operation.bind_error (readingStore_error howner)
  rw [Operation.bind_ok (readingStore_ok howner)]
  simp only [target, hsender, hfound, howner, bind, Except.bind]
  by_cases hsame : owner = some m.sender
  · rw [if_neg (not_not_intro hsame), if_neg (not_not_intro hsame)]
    rcases hholder : v.holder cfg with e | account
    · exact Operation.bind_error (custody_error hholder)
    · rfl
  · rw [if_pos hsame, if_pos hsame]
    rfl

theorem run_claim (cfg : Config) (m : Claim) (v : Vault β) :
    Vault.claim m v =
      match target cfg v (.claim m) with
      | .error e => .error e v
      | .ok e => mark e .claimed v := by
  unfold Vault.claim
  rcases hfound : Ledger.byId v.store m.escrowId with e | found
  · simp only [target, hfound]
    exact Operation.bind_error (readingStore_error hfound)
  rw [Operation.bind_ok (readingStore_ok hfound)]
  cases found with
  | none =>
      simp only [target, hfound]
      rfl
  | some x =>
      simp only [target, hfound, bind, Except.bind]
      by_cases hpending : x.status = .pending
      · rw [if_neg (not_not_intro hpending), if_neg (not_not_intro hpending)]
        rfl
      · rw [if_pos hpending, if_pos hpending]
        rfl

/-- The records decide what a request is about; then it is carried out. -/
theorem run_eq (cfg : Config) (a : Settlement) (v : Vault β) :
    a.run cfg v =
      match a.target cfg v with
      | .error e => .error e v
      | .ok e => a.finish cfg e v := by
  cases a with
  | cancel m => exact run_cancel cfg m v
  | claim m => exact run_claim cfg m v

variable {cfg : Config} {v : Vault β} {a : Settlement} {e : Escrow}

theorem of_target_cancel {m : Cancel} (h : target cfg v (.cancel m) = .ok e) :
    pendingOnRoute v.store m.chain m.denom = .ok e ∧ ∃ account, v.holder cfg = .ok account := by
  rw [target] at h
  obtain ⟨sender, -, hfind⟩ := Operation.of_except_bind_ok h
  obtain ⟨x, hfound, howned⟩ := Operation.of_except_bind_ok hfind
  obtain ⟨owner, -, hrest⟩ := Operation.of_except_bind_ok howned
  split at hrest
  · cases hrest
  · cases hholder : v.holder cfg with
    | error f =>
        rw [hholder] at hrest
        cases hrest
    | ok account =>
        rw [hholder] at hrest
        cases hrest
        exact ⟨hfound, account, rfl⟩

theorem of_target_claim {m : Claim} (h : target cfg v (.claim m) = .ok e) :
    Ledger.byId v.store m.escrowId = .ok (some e) ∧ e.status = .pending := by
  rw [target] at h
  obtain ⟨found, hfound, hrest⟩ := Operation.of_except_bind_ok h
  cases found with
  | none => cases hrest
  | some x =>
      simp only at hrest
      split at hrest
      · cases hrest
      · rename_i hpending
        cases hrest
        exact ⟨hfound, not_not.1 hpending⟩

theorem stored_of_target (h : IsSound v.store) (htarget : a.target cfg v = .ok e) :
    Stored v.store e ∧ e.status = .pending := by
  cases a with
  | cancel m =>
      obtain ⟨hstored, hpending, -⟩ := h.wellKeyed.pendingOnRoute (of_target_cancel htarget).1
      exact ⟨hstored, hpending⟩
  | claim m =>
      obtain ⟨hfound, hpending⟩ := of_target_claim htarget
      exact ⟨(h.wellKeyed.byId_some hfound).1, hpending⟩

end

/-! ## A vault after a settlement -/

/-- The records after the request, by what it is about. -/
def written (a : Settlement) (s : Store) : Except Error Escrow → Store
  | .error _ => s
  | .ok e => Ledger.entered (e.settle a.final) s

/-- What a balance changes by. Only a cancellation pays. -/
def paid (custody : Except Error Address) (account : Address) (denom : String) :
    Settlement → Except Error Escrow → Int
  | .cancel m, .ok e =>
    match custody with
    | .ok custody => Balances.share e.amount m.sender account denom -
        Balances.share e.amount custody account denom
    | .error _ => 0
  | _, _ => 0

/-- Everything that comes of a request. -/
structure Settled (cfg : Config) (v : Vault Balances) (a : Settlement) : Prop where
  result : (a.run cfg).result v = (a.target cfg v).map (·.settle a.final)
  store : ((a.run cfg).after v).store = a.written v.store (a.target cfg v)
  holder : ((a.run cfg).after v).holder cfg = v.holder cfg
  balance (account : Address) (denom : String) :
    ((((a.run cfg).after v).bank.balance account denom).val : Int) =
      (v.bank.balance account denom).val + a.paid (v.holder cfg) account denom (a.target cfg v)

theorem settled_refused {a : Settlement} {e : Error} (h : a.target cfg v = .error e) :
    Settled cfg v a := by
  have hrun : a.run cfg v = .error e v := by
    rw [run_eq, h]
  have hafter := Operation.after_error hrun
  refine ⟨?_, ?_, ?_, ?_⟩
  · rw [Operation.result_error hrun, h]
    rfl
  · rw [hafter, h]
    rfl
  · rw [hafter]
  · intro account denom
    rw [hafter, h]
    cases a <;> exact (Int.add_zero _).symm

theorem settled_of_run {a : Settlement} {e : Escrow} {bank : Balances}
    (htarget : a.target cfg v = .ok e)
    (hrun : a.run cfg v = .ok (e.settle a.final) ⟨Ledger.entered (e.settle a.final) v.store, bank⟩)
    (hhrp : bank.hrp = v.bank.hrp)
    (hpaid : ∀ account denom, ((bank.balance account denom).val : Int) =
      (v.bank.balance account denom).val + a.paid (v.holder cfg) account denom (.ok e)) :
    Settled cfg v a := by
  have hafter := Operation.after_ok hrun
  refine ⟨?_, ?_, ?_, ?_⟩
  · rw [Operation.result_ok hrun, htarget]
    rfl
  · rw [hafter, htarget]
    rfl
  · rw [hafter]
    change (Address.ofModule bank.hrp cfg.moduleName).mapError _ = _
    rw [hhrp]
    rfl
  · intro account denom
    rw [hafter, htarget]
    exact hpaid account denom

theorem settled_canceled (h : Payable cfg hrp v) {m : Cancel} {e : Escrow}
    (htarget : target cfg v (.cancel m) = .ok e) : Settled cfg v (.cancel m) := by
  obtain ⟨hstored, hpending⟩ := stored_of_target h.sound htarget
  obtain ⟨-, custody, hholder⟩ := of_target_cancel htarget
  obtain ⟨bank, hsend⟩ : ∃ bank, v.bank.send custody m.sender e.amount = .ok bank :=
    h.refund_sent hholder hstored hpending
  refine settled_of_run htarget ?_ (Balances.hrp_of_send hsend) ?_
  · rw [run_eq, htarget]
    change refund cfg m.sender e v = _
    unfold refund
    rw [Operation.bind_ok (custody_ok hholder), Operation.bind_ok (send_ok hsend)]
    exact mark_run (v := { v with bank }) hstored.id_ne .canceled
  · intro account denom
    have hmoved := Balances.balance_of_send hsend account denom
    rw [hholder]
    simp only [paid]
    omega

theorem settled_claimed (h : IsSound v.store) {m : Claim} {e : Escrow}
    (htarget : target cfg v (.claim m) = .ok e) : Settled cfg v (.claim m) := by
  obtain ⟨hstored, -⟩ := stored_of_target h htarget
  refine settled_of_run htarget ?_ rfl ?_
  · rw [run_eq, htarget]
    exact mark_run hstored.id_ne .claimed v
  · intro account denom
    exact (Int.add_zero _).symm

/-- From a vault that can pay, a request does what the records say, and never fails at the bank. -/
theorem settled (h : Payable cfg hrp v) (a : Settlement) : Settled cfg v a := by
  cases htarget : a.target cfg v with
  | error e => exact settled_refused htarget
  | ok e =>
      cases a with
      | cancel m => exact settled_canceled h htarget
      | claim m => exact settled_claimed h.sound htarget

theorem payable_after (h : Payable cfg hrp v) (a : Settlement) :
    Payable cfg hrp ((a.run cfg).after v) := by
  rw [after_run]
  apply h.after
  intro custody _
  cases a <;> exact trivial

end Settlement

end Custody.Vault
