import Custody.Proofs.Ledger.Sound

/-!
# Runs on a vault

The three operations on escrows, with any messages and in any order. From a ledger that is in order
an action either leaves the store as it was or writes one escrow.
-/

namespace Custody.Vault

open Ledger (IsSound Sound Stored WellKeyed)
open Store (Key.route)

variable {β : Type}

/-- One of the three operations, with its message. -/
inductive Action where
  | initiate (m : Initiate) (inMemory : m.Addressable)
  | cancel (m : Cancel)
  | claim (m : Claim)

namespace Action

/-- The action is to open an escrow. -/
def opens : Action → Bool
  | .initiate _ _ => true
  | _ => false

/-- The action is to report an escrow as claimed. -/
def claims : Action → Bool
  | .claim _ => true
  | _ => false

variable [Custodian β]

/-- The vault after an action, whether or not it failed. -/
def after (cfg : Config) : Action → Vault β → Vault β
  | .initiate m _ => (Vault.initiate cfg m).after
  | .cancel m => (Vault.cancel cfg m).after
  | .claim m => (Vault.claim m).after

/-- The escrow that an action writes, if it succeeds, as it writes it. -/
def written? (cfg : Config) (v : Vault β) : Action → Option Escrow
  | .initiate m _ => ((Vault.initiate cfg m).result v).toOption.map m.escrow
  | .cancel m => ((Vault.cancel cfg m).result v).toOption
  | .claim m => ((Vault.claim m).result v).toOption

/-- What an action has found out, written and left behind. -/
inductive Effect (cfg : Config) (v : Vault β) : Action → Option Escrow → Vault β → Prop
  | refused (a : Action) : Effect cfg v a none v
  | stranded {m : Initiate} {inMemory : m.Addressable} {account : Address} {bank : β}
      (hholder : v.holder cfg = .ok account)
      (hsend : Custodian.send v.bank m.sender account m.amount = .ok bank) :
      Effect cfg v (.initiate m inMemory) none { v with bank }
  | opened {m : Initiate} {inMemory : m.Addressable} {account : Address} {bank : β} {n : Nat}
      (hcoin : m.amount.check = .ok ()) (hsender : requireAddress cfg.hrp m.sender = .ok m.sender)
      (hholder : v.holder cfg = .ok account)
      (hsend : Custodian.send v.bank m.sender account m.amount = .ok bank)
      (hlast : Ledger.lastId v.store = .ok n) (hn : n + 1 < UInt64.size) :
      Effect cfg v (.initiate m inMemory) (some (m.escrow (toString (n + 1))))
        ⟨Vault.opened m (n + 1) v.store, bank⟩
  | canceled {m : Cancel} {x : Escrow} {account : Address} {bank : β} (hstored : Stored v.store x)
      (hpending : x.status = .pending)
      (hrouted : v.store.get (Key.route m.chain m.denom) = some (Bytes.ofString x.id))
      (howner : Depositors.find? v.store x.id = .ok (some m.sender))
      (hholder : v.holder cfg = .ok account)
      (hsend : Custodian.send v.bank account m.sender x.amount = .ok bank) :
      Effect cfg v (.cancel m) (some (x.settle .canceled))
        ⟨Ledger.entered (x.settle .canceled) v.store, bank⟩
  | claimed {m : Claim} {x : Escrow} (hstored : Stored v.store x) (hpending : x.status = .pending)
      (hid : x.id = m.escrowId) :
      Effect cfg v (.claim m) (some (x.settle .claimed))
        ⟨Ledger.entered (x.settle .claimed) v.store, v.bank⟩

end Action

/-! ## What an action does -/

section Effects

variable [Custodian β] {cfg : Config} {v : Vault β}

theorem requireAddress_of_initiate {m : Initiate} {id : String} {v' : Vault β}
    (h : initiate cfg m v = .ok id v') : requireAddress cfg.hrp m.sender = .ok m.sender := by
  unfold initiate at h
  obtain ⟨u, v₁, -, hrest⟩ := Operation.of_bind_ok h
  obtain ⟨sender, v₂, hlift, -⟩ := Operation.of_bind_ok hrest
  obtain ⟨hsender, -⟩ := Operation.of_lift_ok hlift
  obtain rfl := eq_of_requireAddress hsender
  exact hsender

theorem effect_initiate (m : Initiate) (inMemory : m.Addressable) :
    (Action.initiate m inMemory).Effect cfg v ((Action.initiate m inMemory).written? cfg v)
      ((Action.initiate m inMemory).after cfg v) := by
  have houtcome := initiate_outcome cfg m v
  have hvalid := @requireAddress_of_initiate β _ cfg v m
  rw [Action.written?, Action.after, Operation.result, Operation.after]
  generalize initiate cfg m v = r at houtcome hvalid
  cases houtcome with
  | refused e => exact .refused _
  | stranded e hholder hsend => exact .stranded hholder hsend
  | opened hcoin hholder hsend hlast hn =>
      exact .opened hcoin (hvalid rfl) hholder hsend hlast hn

theorem effect_cancel (h : WellKeyed v.store) (m : Cancel) :
    (Action.cancel m).Effect cfg v ((Action.cancel m).written? cfg v)
      ((Action.cancel m).after cfg v) := by
  have houtcome := cancel_outcome cfg m v
  rw [Action.written?, Action.after, Operation.result, Operation.after]
  generalize cancel cfg m v = r at houtcome
  cases houtcome with
  | refused he => exact .refused _
  | homeless hholder => exact .refused _
  | unpaid hfound hholder hsend => exact .refused _
  | halfway hfound hholder hsend hid =>
      obtain ⟨hstored, -, -⟩ := h.pendingOnRoute hfound
      exact absurd hid hstored.id_ne
  | settled hfound howner hholder hsend hid =>
      obtain ⟨hstored, hpending, hrouted⟩ := h.pendingOnRoute hfound
      exact .canceled hstored hpending hrouted howner hholder hsend

theorem effect_claim (h : WellKeyed v.store) (m : Claim) :
    (Action.claim m).Effect cfg v ((Action.claim m).written? cfg v)
      ((Action.claim m).after cfg v) := by
  have houtcome := claim_outcome m v
  rw [Action.written?, Action.after, Operation.result, Operation.after]
  generalize claim m v = r at houtcome
  cases houtcome with
  | refused e => exact .refused _
  | halfway hfound hpending hid =>
      obtain ⟨hstored, -⟩ := h.byId_some hfound
      exact absurd hid hstored.id_ne
  | settled hfound hpending hid =>
      obtain ⟨hstored, hnamed⟩ := h.byId_some hfound
      exact .claimed hstored hpending hnamed

/-- Every action on records that are in order has an effect. -/
theorem effect (cfg : Config) (h : WellKeyed v.store) (a : Action) :
    a.Effect cfg v (a.written? cfg v) (a.after cfg v) := by
  cases a with
  | initiate m inMemory => exact effect_initiate m inMemory
  | cancel m => exact effect_cancel h m
  | claim m => exact effect_claim h m

/-- An action makes one transfer at most. -/
theorem bank_after (cfg : Config) (h : WellKeyed v.store) (a : Action) :
    (a.after cfg v).bank = v.bank ∨
      ∃ source target c, Custodian.send v.bank source target c = .ok (a.after cfg v).bank := by
  have heffect := effect cfg h a
  generalize a.written? cfg v = written at heffect
  generalize a.after cfg v = v' at heffect
  cases heffect with
  | refused a => exact .inl rfl
  | stranded hholder hsend => exact .inr ⟨_, _, _, hsend⟩
  | opened hcoin hsender hholder hsend hlast hn => exact .inr ⟨_, _, _, hsend⟩
  | canceled hstored hpending hrouted howner hholder hsend => exact .inr ⟨_, _, _, hsend⟩
  | claimed hstored hpending hid => exact .inl rfl

theorem Action.written?_initiate {m : Initiate} {inMemory : m.Addressable} {id : String}
    (h : (Vault.initiate cfg m).result v = .ok id) :
    (Action.initiate m inMemory).written? cfg v = some (m.escrow id) := by
  rw [written?, h]
  rfl

theorem ok_of_toOption {ε α : Type} {x : Except ε α} {a : α} (h : x.toOption = some a) :
    x = .ok a := by
  cases x with
  | error e => cases h
  | ok b =>
      cases h
      rfl

theorem Action.result_of_cancel {m : Cancel} {e : Escrow}
    (h : (Action.cancel m).written? cfg v = some e) : (Vault.cancel cfg m).result v = .ok e :=
  ok_of_toOption h

theorem Action.result_of_claim (cfg : Config) {m : Claim} {e : Escrow}
    (h : (Action.claim m).written? cfg v = some e) : (Vault.claim m).result v = .ok e :=
  ok_of_toOption h

end Effects

/-! ## Runs -/

/-- A successful action, with the escrow that it has written. -/
structure Entry where
  action : Action
  escrow : Escrow

section Running

variable [Custodian β] {cfg : Config}

/-- The vault after all actions. -/
def run (cfg : Config) (actions : List Action) (v : Vault β) : Vault β :=
  actions.foldl (fun v a => a.after cfg v) v

/-- The entry of an action, if it succeeds. -/
def logged? (cfg : Config) (v : Vault β) (a : Action) : Option Entry :=
  (a.written? cfg v).map (Entry.mk a)

/-- What the successful actions of a run have written, in their order. -/
def log (cfg : Config) : List Action → Vault β → List Entry
  | [], _ => []
  | a :: rest, v => (logged? cfg v a).toList ++ log cfg rest (a.after cfg v)

theorem run_cons (a : Action) (actions : List Action) (v : Vault β) :
    run cfg (a :: actions) v = run cfg actions (a.after cfg v) := rfl

/-- A property of what has been written so far and of the vault that every action keeps. -/
theorem log_induction {P : List Entry → Vault β → Prop}
    (hstep : ∀ past v a, P past v → P (past ++ (logged? cfg v a).toList) (a.after cfg v))
    (actions : List Action) {past : List Entry} {v : Vault β} (h : P past v) :
    P (past ++ log cfg actions v) (run cfg actions v) := by
  induction actions generalizing past v with
  | nil =>
      rw [log, List.append_nil]
      exact h
  | cons a actions ih =>
      rw [log, run_cons, ← List.append_assoc]
      exact ih (hstep past v a h)

/-- A property of the vault that every action keeps. -/
theorem run_induction {P : Vault β → Prop} {actions : List Action}
    (hstep : ∀ a ∈ actions, ∀ v, P v → P (a.after cfg v)) {v : Vault β} (h : P v) :
    P (run cfg actions v) := by
  induction actions generalizing v with
  | nil => exact h
  | cons a actions ih =>
      rw [run_cons]
      apply ih
      · intro next hnext
        exact hstep next (List.mem_cons_of_mem a hnext)
      · exact hstep a List.mem_cons_self v h

/-! ## Ids count the openings -/

/-- How many escrows have been opened. -/
def openings (entries : List Entry) : Nat := entries.countP fun x => x.action.opens

theorem sound_after {v : Vault β} {n : Nat} (h : Sound v.store n) (a : Action) :
    Sound (a.after cfg v).store (n + openings (logged? cfg v a).toList) := by
  have heffect := effect cfg h.wellKeyed a
  unfold logged?
  generalize a.written? cfg v = written at heffect
  generalize a.after cfg v = v' at heffect
  cases heffect with
  | refused a => exact h
  | stranded hholder hsend => exact h
  | @opened m inMemory account bank k hcoin hsender hholder hsend hlast hn =>
      have hsame : n = k := Except.ok.inj (h.lastId.symm.trans hlast)
      subst hsame
      exact h.opened hn inMemory hcoin
  | canceled hstored hpending hrouted howner hholder hsend => exact h.settle hstored .canceled
  | claimed hstored hpending hid => exact h.settle hstored .claimed

theorem sound_step (past : List Entry) (v : Vault β) (a : Action)
    (h : Sound v.store (openings past)) :
    Sound (a.after cfg v).store (openings (past ++ (logged? cfg v a).toList)) := by
  have hcount : openings (past ++ (logged? cfg v a).toList) =
      openings past + openings (logged? cfg v a).toList := List.countP_append
  rw [hcount]
  exact sound_after h a

/-- From an empty store, the ledger has given out as many ids as escrows have been opened. -/
theorem sound_run (cfg : Config) (bank : β) (actions : List Action) :
    Sound (run cfg actions ⟨.empty, bank⟩).store (openings (log cfg actions ⟨.empty, bank⟩)) := by
  have hstart : Sound (⟨.empty, bank⟩ : Vault β).store (openings []) := Sound.empty
  exact log_induction (P := fun past v => Sound v.store (openings past)) sound_step actions hstart

theorem isSound_after (cfg : Config) {v : Vault β} (h : IsSound v.store) (a : Action) :
    IsSound (a.after cfg v).store := by
  obtain ⟨n, hn⟩ := h
  exact ⟨_, sound_after hn a⟩

theorem isSound_run (cfg : Config) {v : Vault β} (h : IsSound v.store) (actions : List Action) :
    IsSound (run cfg actions v).store := by
  apply run_induction (P := fun v => IsSound v.store) _ h
  intro a _ w hw
  exact isSound_after cfg hw a

end Running

end Custody.Vault
