import Custody.Proofs.Contract.Execution
import Custody.Proofs.Ledger.Sound

/-!
# Histories of calls

The calls to one contract, one after the other. A call that fails is rolled back by the host, and one
that succeeds leaves a receipt.
-/

namespace Custody.Contract

/-- The texts that a command puts into a record are texts in memory. -/
def InMemory : Command → Prop
  | .initiate chain _ recipient _ _ =>
    Text.Addressable chain ∧ Text.Addressable (recipient.getD "")
  | _ => True

/-- A call at some height. -/
structure Invocation where
  height : UInt64
  call : Call
  command : Command
  inMemory : InMemory command

/-- A call that has succeeded, with the store before and after it. -/
structure Receipt where
  invocation : Invocation
  before : Store
  response : Response
  after : Store

/-- The call on the contract at an address. -/
def Invocation.run (contract : Address) (i : Invocation) : Operation Store Response :=
  execute ⟨i.height, contract⟩ i.call i.command

/-- The store after a call: as it was before, if the call fails. -/
def Invocation.committed (contract : Address) (i : Invocation) (s : Store) : Store :=
  match i.run contract s with
  | .ok _ t => t
  | .error _ _ => s

/-- The receipt of a call, if it succeeds. -/
def Invocation.receipt? (contract : Address) (i : Invocation) (s : Store) : Option Receipt :=
  match i.run contract s with
  | .ok r t => some ⟨i, s, r, t⟩
  | .error _ _ => none

/-- The store after all calls. -/
def settled (contract : Address) (calls : List Invocation) (s : Store) : Store :=
  calls.foldl (fun s i => i.committed contract s) s

/-- The receipts of the calls that succeed, in their order. -/
def history (contract : Address) : List Invocation → Store → List Receipt
  | [], _ => []
  | i :: rest, s =>
    (i.receipt? contract s).toList ++ history contract rest (i.committed contract s)

/-- The store of a contract that has just been set up. -/
def deployed (setup : Setup) : Store := (instantiate setup).after .empty

/-- The command that was carried out. -/
def Receipt.command (r : Receipt) : Command := r.invocation.command

def Receipt.call (r : Receipt) : Call := r.invocation.call

/-- What the call of a receipt has done. -/
def Receipt.Valid (r : Receipt) : Prop :=
  InMemory r.command ∧ Effect r.call r.before r.command r.response r.after

variable {contract : Address} {s : Store}

/-! ## Every call leaves a valid receipt, or nothing -/

theorem committed_cases (contract : Address) (i : Invocation) (s : Store) :
    i.receipt? contract s = none ∧ i.committed contract s = s ∨
      ∃ r, i.receipt? contract s = some r ∧ r.before = s ∧ r.after = i.committed contract s ∧
        r.Valid := by
  unfold Invocation.receipt? Invocation.committed
  cases hrun : i.run contract s with
  | error e t => exact .inl ⟨rfl, rfl⟩
  | ok response t =>
      exact .inr ⟨⟨i, s, response, t⟩, rfl, rfl, rfl, i.inMemory, effect_of_execute hrun⟩

/-- A property of the receipts so far and the store that every valid receipt keeps. -/
theorem history_induction {P : List Receipt → Store → Prop}
    (hstep : ∀ past r, r.Valid → P past r.before → P (past ++ [r]) r.after)
    (calls : List Invocation) {past : List Receipt} {s : Store} (h : P past s) :
    P (past ++ history contract calls s) (settled contract calls s) := by
  induction calls generalizing past s with
  | nil =>
      rw [history, List.append_nil]
      exact h
  | cons i calls ih =>
      have hrest : settled contract (i :: calls) s =
        settled contract calls (i.committed contract s) := rfl
      rw [history, hrest]
      rcases committed_cases contract i s with ⟨hnone, hsame⟩ | ⟨r, hsome, hbefore, hafter, hvalid⟩
      · rw [hnone, hsame]
        exact ih h
      · subst hbefore
        rw [hsome, ← hafter, Option.toList_some, ← List.append_assoc]
        exact ih (hstep past r hvalid h)

/-- What holds of the receipts before one of them and of the store that it found. -/
theorem history_split {P : List Receipt → Store → Prop}
    (hstep : ∀ past r, r.Valid → P past r.before → P (past ++ [r]) r.after)
    {calls : List Invocation} {past earlier later : List Receipt} {r : Receipt} {s : Store}
    (h : P past s) (hsplit : history contract calls s = earlier ++ r :: later) :
    r.Valid ∧ P (past ++ earlier) r.before := by
  induction calls generalizing past earlier s with
  | nil => cases earlier <;> cases hsplit
  | cons i calls ih =>
      rw [history] at hsplit
      rcases committed_cases contract i s with ⟨hnone, hsame⟩ | ⟨x, hsome, hbefore, hafter, hvalid⟩
      · rw [hnone, hsame] at hsplit
        exact ih h hsplit
      · subst hbefore
        rw [hsome, Option.toList_some, List.singleton_append] at hsplit
        cases earlier with
        | nil =>
            rw [List.nil_append, List.cons.injEq] at hsplit
            rw [← hsplit.1, List.append_nil]
            exact ⟨hvalid, h⟩
        | cons y earlier =>
            rw [List.cons_append, List.cons.injEq] at hsplit
            rw [← hsplit.1, ← List.singleton_append, ← List.append_assoc]
            apply ih _ hsplit.2
            rw [← hafter]
            exact hstep past x hvalid h

/-! ## The ledger of a contract is sound -/

theorem same_instantiated (setup : Setup) (s : Store) :
    Ledger.Same ((instantiate setup).after s) s := by
  have hsave : ∀ c : Config, Ledger.Same (Settings.save s c) s := by
    intro c
    exact (Ledger.Same.insert Store.Key.not_ofLedger_config _ _).trans
      (Ledger.Same.insert Store.Key.not_ofLedger_version _ _)
  unfold instantiate
  simp only
  split
  · exact Ledger.Same.refl _
  · cases hdenom : requireDenom setup.config.baseDenom with
    | error e => exact Ledger.Same.refl _
    | ok u => exact hsave setup.config

theorem same_deployed (setup : Setup) : Ledger.Same (deployed setup) .empty :=
  same_instantiated setup .empty

theorem isSound_deployed (setup : Setup) : Ledger.IsSound (deployed setup) :=
  ⟨0, Ledger.Sound.empty.congr (same_deployed setup)⟩

theorem records_deployed (setup : Setup) : Ledger.records (deployed setup) none = [] :=
  (same_deployed setup).records

theorem Effect.isSound {call : Call} {s t : Store} {command : Command} {response : Response}
    (heffect : Effect call s command response t) (hmemory : InMemory command)
    (h : Ledger.IsSound s) : Ledger.IsSound t := by
  cases heffect with
  | opened hcoin hlast hn hfunds => exact h.opened hlast hn ⟨hmemory.1, hmemory.2⟩ hcoin
  | refunded hfunds hfound howner hid =>
      exact h.settle (h.wellKeyed.pendingOnRoute hfound).1 .canceled
  | claimed hfunds hfound hpending hid =>
      exact h.settle (h.wellKeyed.byId_some hfound).1 .claimed

theorem isSound_of_receipt {r : Receipt} (hvalid : r.Valid) (h : Ledger.IsSound r.before) :
    Ledger.IsSound r.after :=
  hvalid.2.isSound hvalid.1 h

end Custody.Contract
