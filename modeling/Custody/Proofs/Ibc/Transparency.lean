import Mathlib.Control.Monad.Basic
import Custody.Bank.Balances
import Custody.Proofs.Ibc.Passage
import Custody.Proofs.Ibc.Run

/-!
# Layers an application cannot tell

An application that answers out of its own state gets the same callbacks and gives the same answers
inside a stack as alone, as long as no packet arrives. What the layers leave in the store is one
entry each, and only for a channel of their own port.
-/

namespace Custody.Ibc

open Store (Key.channel Key.account)

variable {β ω : Type}

/-! ## Applications with a state of their own -/

/-- The application answers out of its own state, and changes nothing else. -/
structure Secluded (app : Application β ω) : Prop where
  result : ∀ c v w, v.app = w.app → (app c).result v = (app c).result w
  state : ∀ c v w, v.app = w.app → ((app c).after v).app = ((app c).after w).app
  vault : ∀ c w, ((app c).after w).vault = w.vault

theorem app_recorder (refuses : Bool) (c : Callback) (w : World β (List Callback)) :
    ((recorder refuses c).after w).app = w.app ++ [c] := by
  cases refuses <;> cases c <;> rfl

theorem secluded_recorder (refuses : Bool) :
    Secluded (recorder refuses : Application β (List Callback)) where
  result c v w _ := by cases refuses <;> cases c <;> rfl
  state c v w h := by rw [app_recorder, app_recorder, h]
  vault c w := after_recorder refuses c w

/-! ## What a stack may write -/

/-- The keys that layers may write to on a callback, given the chain at the other end of its
channel. -/
inductive Writes (cfg : Config) (c : Callback) (layers : List Layer) (chain : String) : Bytes → Prop
  | channel {d : Directory} {e : Endpoint} (hlayer : .transfer d ∈ layers)
      (hends : c.opened? = some e ∨ c.closed? = some e) (hport : e.port = cfg.transferPort) :
      Writes cfg c layers chain (Key.channel e.channel)
  | account {d : Directory} {host : Account.Host} {e : Endpoint} (hlayer : .account d host ∈ layers)
      (hopened : c.opened? = some e) (hport : e.port = cfg.accountHostPort)
      (hchain : (d.chainOf e).run.value = .ok chain) :
      Writes cfg c layers chain (Key.account chain)

section Writing

variable {cfg : Config} {c : Callback} {layers : List Layer} {chain : String} {key : Bytes}

theorem Writes.mono {layers' : List Layer} (h : Writes cfg c layers chain key)
    (hsub : ∀ layer ∈ layers, layer ∈ layers') : Writes cfg c layers' chain key := by
  cases h with
  | channel hlayer hends hport => exact .channel (hsub _ hlayer) hends hport
  | account hlayer hopened hport hchain => exact .account (hsub _ hlayer) hopened hport hchain

theorem eq_of_get_insert_ne {s : Store} {k value : Bytes}
    (h : (s.insert k value).get key ≠ s.get key) : key = k := by
  by_contra hne
  exact h (by rw [Store.get_insert, if_neg hne])

theorem eq_of_get_erase_ne {s : Store} {k : Bytes} (h : (s.erase k).get key ≠ s.get key) :
    key = k := by
  by_contra hne
  exact h (by rw [Store.get_erase, if_neg hne])

theorem Transfer.of_admitted_ne {d : Directory} {e : Endpoint} {s : Store}
    (h : (admitted cfg d e s).get key ≠ s.get key) :
    e.port = cfg.transferPort ∧ key = Key.channel e.channel := by
  unfold admitted at h
  split at h
  · rename_i hport
    split at h
    · exact absurd rfl h
    · split at h
      · exact ⟨hport, eq_of_get_insert_ne h⟩
      · exact absurd rfl h
  · exact absurd rfl h

theorem Transfer.of_dismissed_ne {e : Endpoint} {s : Store}
    (h : (dismissed cfg e s).get key ≠ s.get key) :
    e.port = cfg.transferPort ∧ key = Key.channel e.channel := by
  unfold dismissed at h
  split at h
  · rename_i hport
    exact ⟨hport, eq_of_get_erase_ne h⟩
  · exact absurd rfl h

theorem Account.of_found {d : Directory} {host : Account.Host} {e : Endpoint} {account : Address}
    (h : found? cfg d host e = some (chain, account)) :
    e.port = cfg.accountHostPort ∧ (d.chainOf e).run.value = .ok chain := by
  obtain ⟨hport, hop, port, hleads, -, -⟩ := found?_eq_some.1 h
  exact ⟨hport, Directory.chainOf_eq_ok.2 ⟨_, hleads, rfl⟩⟩

theorem Account.of_authorized_ne {d : Directory} {host : Account.Host} {e : Endpoint} {s : Store}
    (h : (authorized cfg d host e s).get key ≠ s.get key) :
    ∃ chain, e.port = cfg.accountHostPort ∧ (d.chainOf e).run.value = .ok chain ∧
      key = Key.account chain := by
  unfold authorized at h
  split at h
  · exact absurd rfl h
  · rename_i chain account hfound
    obtain ⟨hport, hchain⟩ := of_found hfound
    exact ⟨chain, hport, hchain, eq_of_get_insert_ne h⟩

theorem Layer.writes_of_noted {layer : Layer} {s : Store}
    (h : (layer.noted cfg c s).get key ≠ s.get key) : ∃ chain, Writes cfg c [layer] chain key := by
  unfold Layer.noted at h
  cases layer with
  | transfer d =>
      cases hopened : c.opened? with
      | some e =>
          simp only [hopened] at h
          obtain ⟨hport, rfl⟩ := Transfer.of_admitted_ne h
          exact ⟨"", .channel List.mem_cons_self (.inl hopened) hport⟩
      | none =>
          cases hclosed : c.closed? with
          | some e =>
              simp only [hopened, hclosed] at h
              obtain ⟨hport, rfl⟩ := Transfer.of_dismissed_ne h
              exact ⟨"", .channel List.mem_cons_self (.inr hclosed) hport⟩
          | none =>
              simp only [hopened, hclosed] at h
              exact absurd rfl h
  | account d host =>
      cases hopened : c.opened? with
      | some e =>
          simp only [hopened] at h
          obtain ⟨chain, hport, hchain, rfl⟩ := Account.of_authorized_ne h
          exact ⟨chain, .account List.mem_cons_self hopened hport hchain⟩
      | none =>
          simp only [hopened] at h
          exact absurd rfl h

theorem writes_of_notedBy {s : Store} (h : (notedBy cfg c layers s).get key ≠ s.get key) :
    ∃ chain, Writes cfg c layers chain key := by
  induction layers generalizing s with
  | nil => exact absurd rfl h
  | cons layer layers ih =>
      by_cases hfirst : (layer.noted cfg c s).get key = s.get key
      · rw [← hfirst] at h
        obtain ⟨chain, hwrites⟩ := ih h
        exact ⟨chain, hwrites.mono fun _ => List.mem_cons_of_mem layer⟩
      · obtain ⟨chain, hwrites⟩ := Layer.writes_of_noted hfirst
        exact ⟨chain, hwrites.mono (List.forall_mem_singleton.2 List.mem_cons_self)⟩

end Writing

/-! ## One callback -/

section Callbacks

variable [Custodian β] {cfg : Config} {c : Callback} {app : Application β ω}

theorem result_stack (cfg : Config) (happ : Secluded app) (layers : List Layer) (hpass : ¬ c.arrives)
    {v w : World β ω} (h : v.app = w.app) :
    (stack cfg layers app c).result v = (app c).result w := by
  obtain ⟨requests, hstack⟩ := stack_eq cfg layers app hpass v
  rw [Operation.result, hstack, ← Operation.result]
  exact happ.result c _ w h

theorem app_stack (cfg : Config) (happ : Secluded app) (layers : List Layer) (hpass : ¬ c.arrives)
    {v w : World β ω} (h : v.app = w.app) :
    ((stack cfg layers app c).after v).app = ((app c).after w).app := by
  obtain ⟨requests, hstack⟩ := stack_eq cfg layers app hpass v
  rw [Operation.after, hstack, ← Operation.after]
  exact happ.state c _ w h

theorem vault_stack (happ : Secluded app) (layers : List Layer) (hpass : ¬ c.arrives)
    (w : World β ω) : ((stack cfg layers app c).after w).vault =
      { w.vault with store := notedBy cfg c layers w.vault.store } := by
  obtain ⟨requests, hstack⟩ := stack_eq cfg layers app hpass w
  rw [Operation.after, hstack, ← Operation.after, happ.vault]
  rfl

end Callbacks

/-! ## Any number of callbacks -/

/-- A callback that goes through a stack of layers. -/
structure Call where
  layers : List Layer
  callback : Callback

namespace Call

def step (call : Call) : Step := .callback call.layers call.callback

/-- The same callback on the application alone. -/
def bare (call : Call) : Call := ⟨[], call.callback⟩

end Call

/-- The world after all calls, whatever they were answered. -/
def called [Custodian β] (cfg : Config) (app : Application β ω) (calls : List Call)
    (w : World β ω) : World β ω :=
  run cfg app (calls.map Call.step) w

/-- What the calls are answered, one after the other. -/
def replies [Custodian β] (cfg : Config) (app : Application β ω) :
    List Call → World β ω → List (Except Error Reply)
  | [], _ => []
  | call :: rest, w =>
    (stack cfg call.layers app call.callback).result w ::
      replies cfg app rest (call.step.after cfg app w)

/-- The stacks in use: either layer alone, or the account layer around the transfer layer. -/
inductive InUse : List Layer → Prop
  | transfer (d : Directory) : InUse [.transfer d]
  | account (d : Directory) (host : Account.Host) : InUse [.account d host]
  | both (d : Directory) (host : Account.Host) (d' : Directory) :
      InUse [.account d host, .transfer d']

theorem InUse.account_unique {layers : List Layer} (h : InUse layers) {d d' : Directory}
    {host host' : Account.Host} (hlayer : .account d host ∈ layers)
    (hlayer' : .account d' host' ∈ layers) : d = d' := by
  cases h <;> simp_all

/-- One entry for an account at most, however the directories change the chain they give. -/
theorem InUse.exists_chain {layers : List Layer} (h : InUse layers) (cfg : Config) (c : Callback) :
    ∃ chain, ∀ other key, Writes cfg c layers other key → Writes cfg c layers chain key := by
  by_cases hsome : ∃ d host e chain, Layer.account d host ∈ layers ∧ c.opened? = some e ∧
      (d.chainOf e).run.value = .ok chain
  · obtain ⟨d, host, e, chain, hlayer, hopened, hchain⟩ := hsome
    refine ⟨chain, fun other key hwrites => ?_⟩
    cases hwrites with
    | channel hlayer' hends hport => exact .channel hlayer' hends hport
    | account hlayer' hopened' hport hother =>
        obtain rfl := h.account_unique hlayer hlayer'
        obtain rfl := Option.some.inj (hopened.symm.trans hopened')
        obtain rfl := Except.ok.inj (hchain.symm.trans hother)
        exact .account hlayer' hopened' hport hother
  · refine ⟨"", fun other key hwrites => ?_⟩
    cases hwrites with
    | channel hlayer hends hport => exact .channel hlayer hends hport
    | account hlayer hopened hport hchain =>
        exact absurd ⟨_, _, _, _, hlayer, hopened, hchain⟩ hsome

section Calls

variable [Custodian β] {cfg : Config} {app : Application β ω} {calls : List Call}

/-- Step by step the stacks and the bare application stay in worlds that agree in the state of the
application, so they give the same answers. -/
theorem replies_bare (cfg : Config) (happ : Secluded app)
    (hpass : ∀ call ∈ calls, ¬ call.callback.arrives) {v w : World β ω} (h : v.app = w.app) :
    replies cfg app calls v = replies cfg app (calls.map Call.bare) w ∧
      (called cfg app calls v).app = (called cfg app (calls.map Call.bare) w).app := by
  induction calls generalizing v w with
  | nil => exact ⟨rfl, h⟩
  | cons call calls ih =>
      have hcall := hpass call List.mem_cons_self
      have hresult := result_stack cfg happ call.layers hcall h
      have happ' := app_stack cfg happ call.layers hcall h
      obtain ⟨hreplies, hcalled⟩ :=
        ih (fun next hnext => hpass next (List.mem_cons_of_mem call hnext)) happ'
      exact ⟨List.cons_eq_cons.2 ⟨hresult, hreplies⟩, hcalled⟩

theorem called_recorder (cfg : Config) (refuses : Bool)
    (hpass : ∀ call ∈ calls, ¬ call.callback.arrives) (w : World β (List Callback)) :
    (called cfg (recorder refuses) calls w).app = w.app ++ calls.map Call.callback := by
  induction calls generalizing w with
  | nil => exact (List.append_nil w.app).symm
  | cons call calls ih =>
      have hcall := hpass call List.mem_cons_self
      have hfirst := app_stack cfg (secluded_recorder refuses) call.layers hcall (v := w) rfl
      rw [app_recorder] at hfirst
      change (called cfg (recorder refuses) calls _).app = _
      rw [ih fun next hnext => hpass next (List.mem_cons_of_mem call hnext)]
      change ((stack cfg call.layers (recorder refuses) call.callback).after w).app ++ _ = _
      rw [hfirst, List.map_cons, List.append_assoc]
      rfl

/-- Any calls but packets, each through one of the stacks and over directories of its own: they are
answered as the application alone answers them, and the application sees each of them once, in their
order. On each, the stack leaves the bank alone and writes under the allowed-channel entry of the
channel, if that is on the transfer port, and under the account of one chain, if it has opened on
the host port. -/
theorem stacks_transparent (cfg : Config) (refuses : Bool) {calls : List Call}
    (huse : ∀ call ∈ calls, InUse call.layers)
    (hpass : ∀ call ∈ calls, ¬ call.callback.arrives) (w : World β (List Callback)) :
    replies cfg (recorder refuses) calls w =
        replies cfg (recorder refuses) (calls.map Call.bare) w ∧
      (called cfg (recorder refuses) calls w).app = w.app ++ calls.map Call.callback ∧
      (called cfg (recorder refuses) (calls.map Call.bare) w).app =
        w.app ++ calls.map Call.callback ∧
      ∀ call ∈ calls, ∀ v : World β (List Callback),
        let after := call.step.after cfg (recorder refuses) v
        after.vault.bank = v.vault.bank ∧
          ∃ chain, ∀ key, after.vault.store.get key ≠ v.vault.store.get key →
            Writes cfg call.callback call.layers chain key := by
  have happ := secluded_recorder (β := β) refuses
  have hcalled := called_recorder cfg refuses hpass w
  obtain ⟨hreplies, hsame⟩ := replies_bare cfg happ hpass (v := w) rfl
  refine ⟨hreplies, hcalled, hsame.symm.trans hcalled, ?_⟩
  intro call hcall v after
  have hvault : after.vault = { v.vault with
      store := notedBy cfg call.callback call.layers v.vault.store } :=
    vault_stack happ call.layers (hpass call hcall) v
  obtain ⟨chain, hchain⟩ := (huse call hcall).exists_chain cfg call.callback
  refine ⟨by rw [hvault], chain, fun key hchanged => ?_⟩
  rw [hvault] at hchanged
  obtain ⟨other, hwrites⟩ := writes_of_notedBy hchanged
  exact hchain other key hwrites

end Calls

theorem stacks_transparent_refused_account :
    let controller := "icacontroller-maanydex-mint"
    let d := ((({} : Registry).addTendermintChannel ⟨"icahost", "channel-3"⟩ "connection-0"
      "07-tendermint-0" "maanydex").setCounterpartyPort ⟨"icahost", "channel-3"⟩ controller).directory
    let host : Account.Host := fun connection port =>
      if connection = "connection-0" ∧ port = controller then some "maany1icaaccount" else none
    let calls : List Call := [
      ⟨[.transfer d], .openAck ⟨⟨"transfer", "channel-0"⟩, "channel-7", "ics20-1"⟩⟩,
      ⟨[.account d host, .transfer d], .openConfirm ⟨"icahost", "channel-3"⟩⟩,
      ⟨[.account d host], .closeInit ⟨"icahost", "channel-3"⟩⟩]
    let w : World Balances (List Callback) := ⟨⟨.empty, .empty "maany"⟩, [], []⟩
    let after := called {} (recorder true) calls w
    AccountRegistry.find? after.vault.store "maanydex" = .ok (some "maany1icaaccount") ∧
      replies {} (recorder true) calls w = replies {} (recorder true) (calls.map Call.bare) w ∧
      after.app = calls.map Call.callback := by
  intro controller d host calls w after
  have hnoted : AccountRegistry.find? after.vault.store "maanydex" =
      .ok (some "maany1icaaccount") := by rfl
  have huse : ∀ call ∈ calls, InUse call.layers := by
    simp only [calls, List.forall_mem_cons, List.not_mem_nil, false_imp_iff, implies_true, and_true]
    exact ⟨.transfer d, .both d host d, .account d host⟩
  have htransparent := stacks_transparent {} true huse (by decide) w
  exact ⟨hnoted, htransparent.1, htransparent.2.1⟩

end Custody.Ibc
