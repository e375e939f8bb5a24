import Mathlib.Control.Monad.Basic
import Mathlib.Data.List.Induction
import Custody.Bank.Balances
import Custody.Proofs.Ibc.Noted

/-!
# The history of the authorized accounts

Which account is authorized for a chain is read off the callbacks that have passed through account
layers: it is the one that was found at the last channel of the host port that opened towards the
chain. What is asked along the way is what directory and host say at that very moment.
-/

namespace Custody

namespace AccountRegistry

theorem find?_insert (s : Store) (chain' : String) (account : Address) (chain : String) :
    find? (s.insert (Store.Key.account chain') (Bytes.ofString account)) chain =
      if chain = chain' then .ok (some account) else find? s chain := by
  simp only [find?, Store.get_insert, Store.Key.account_inj]
  by_cases hchain : chain = chain'
  · rw [if_pos hchain, if_pos hchain]
    simp only [Text.Utf8.decode_ofString]
    rfl
  · rw [if_neg hchain, if_neg hchain]

theorem find?_insert_channel (s : Store) (channel chain : String) :
    find? (ChannelSet.insert s channel) chain = find? s chain := by
  simp only [find?, ChannelSet.insert, Store.get_insert]
  rw [if_neg (Store.Key.account_ne_channel chain channel)]

theorem find?_erase_channel (s : Store) (channel chain : String) :
    find? (ChannelSet.erase s channel) chain = find? s chain := by
  simp only [find?, ChannelSet.erase, Store.get_erase]
  rw [if_neg (Store.Key.account_ne_channel chain channel)]

theorem find?_of_sameOutside {s t : Store} (h : Ledger.SameOutside s t) (chain : String) :
    find? s chain = find? t chain := by
  have hget := h _ (Store.Key.not_ofLedger_account chain)
  unfold find?
  rw [hget]

/-- An account that is empty cannot be kept. -/
theorem set_blank (chain : String) (s : Store) :
    set chain "" s = .error (.aborted .emptyValue) s := by
  have hvalue : Bytes.ofString "" = [] := rfl
  unfold set Store.save
  rw [if_pos hvalue]
  rfl

end AccountRegistry

namespace Ibc

variable {cfg : Config} {chain : String} {account : Address} {found : Option Address}

/-! ## One layer -/

/-- A callback that passes through a layer. -/
structure Passage where
  layer : Layer
  callback : Callback

/-- The callback opens a channel of the host port, the layer is an account layer whose directory has
the chain at the other end, and its host has an account for the first connection of the channel and
the port at the other end. -/
inductive Passage.Registers (cfg : Config) (chain : String) (account : Address) : Passage → Prop
  | intro {d : Directory} {host : Account.Host} {c : Callback} {e : Endpoint} {hop port : String}
      (hopened : c.opened? = some e) (hport : e.port = cfg.accountHostPort)
      (hleads : d.Leads e ⟨chain, hop, port⟩) (hfound : host hop port = some account)
      (hgiven : account ≠ "") : Registers cfg chain account ⟨.account d host, c⟩

theorem Passage.registers_account_iff {d : Directory} {host : Account.Host} {c : Callback} :
    Registers cfg chain account ⟨.account d host, c⟩ ↔
      ∃ e, c.opened? = some e ∧ Account.found? cfg d host e = some (chain, account) := by
  constructor
  · rintro ⟨hopened, hport, hleads, hfound, hgiven⟩
    exact ⟨_, hopened, Account.found?_eq_some.2 ⟨hport, _, _, hleads, hfound, hgiven⟩⟩
  · rintro ⟨e, hopened, hfound⟩
    obtain ⟨hport, hop, port, hleads, hhost, hgiven⟩ := Account.found?_eq_some.1 hfound
    exact .intro hopened hport hleads hhost hgiven

/-- The store once the layer has noted what the callback says. -/
def Passage.noted (cfg : Config) (p : Passage) (s : Store) : Store := p.layer.noted cfg p.callback s

theorem Passage.find?_noted_of_registers {p : Passage} (h : p.Registers cfg chain account)
    (s : Store) : AccountRegistry.find? (p.noted cfg s) chain = .ok (some account) := by
  obtain ⟨layer, c⟩ := p
  cases layer with
  | transfer d => cases h
  | account d host =>
      obtain ⟨e, hopened, hfound⟩ := registers_account_iff.1 h
      simp only [noted, Layer.noted, hopened, Account.authorized, hfound]
      rw [AccountRegistry.find?_insert, if_pos rfl]

theorem Transfer.find?_noted (d : Directory) (c : Callback) (s : Store) (chain : String) :
    AccountRegistry.find? ((Layer.transfer d).noted cfg c s) chain =
      AccountRegistry.find? s chain := by
  unfold Layer.noted Transfer.admitted Transfer.dismissed
  cases c.opened? with
  | some e =>
      simp only
      split
      · split
        · rfl
        · split
          · exact AccountRegistry.find?_insert_channel s e.channel chain
          · rfl
      · rfl
  | none =>
      cases c.closed? with
      | none => rfl
      | some e =>
          simp only
          split
          · exact AccountRegistry.find?_erase_channel s e.channel chain
          · rfl

theorem Passage.find?_noted_of_not {p : Passage} (h : ∀ account, ¬ p.Registers cfg chain account)
    (s : Store) : AccountRegistry.find? (p.noted cfg s) chain = AccountRegistry.find? s chain := by
  obtain ⟨layer, c⟩ := p
  cases layer with
  | transfer d => exact Transfer.find?_noted d c s chain
  | account d host =>
      unfold noted Layer.noted
      cases hopened : c.opened? with
      | none => rfl
      | some e =>
          simp only [Account.authorized]
          cases hfound : Account.found? cfg d host e with
          | none => rfl
          | some found =>
              obtain ⟨chain', account⟩ := found
              have hother : chain ≠ chain' := by
                rintro rfl
                exact h account (registers_account_iff.2 ⟨e, hopened, hfound⟩)
              simp only
              rw [AccountRegistry.find?_insert, if_neg hother]

/-- What is on record for the chain after a passage. -/
theorem Passage.find?_noted_eq_ok (p : Passage) (s : Store) :
    AccountRegistry.find? (p.noted cfg s) chain = .ok found ↔
      (∃ account, p.Registers cfg chain account ∧ found = some account) ∨
        AccountRegistry.find? s chain = .ok found ∧
          ∀ account, ¬ p.Registers cfg chain account := by
  by_cases hregisters : ∃ account, p.Registers cfg chain account
  · obtain ⟨account, hp⟩ := hregisters
    rw [find?_noted_of_registers hp, Except.ok.injEq]
    constructor
    · rintro rfl
      exact .inl ⟨account, hp, rfl⟩
    · rintro (⟨account', hp', rfl⟩ | ⟨-, hnot⟩)
      · have hsame := (find?_noted_of_registers hp s).symm.trans (find?_noted_of_registers hp' s)
        exact Except.ok.inj hsame
      · exact absurd hp (hnot account)
  · have hnot := not_exists.1 hregisters
    rw [find?_noted_of_not hnot, and_iff_left hnot]
    refine (or_iff_right ?_).symm
    rintro ⟨account, hp, -⟩
    exact hnot account hp

/-! ## Passages one after the other -/

/-- What the passages leave on record for the chain: the account that the last of them to register
one has registered, and none if there is no such passage. -/
inductive Recorded (cfg : Config) (chain : String) (passages : List Passage) :
    Option Address → Prop
  | none (hnever : ∀ p ∈ passages, ∀ account, ¬ p.Registers cfg chain account) :
      Recorded cfg chain passages none
  | some {past later : List Passage} {p : Passage} {account : Address}
      (hsplit : passages = past ++ p :: later) (hregisters : p.Registers cfg chain account)
      (hlast : ∀ q ∈ later, ∀ other, ¬ q.Registers cfg chain other) :
      Recorded cfg chain passages (some account)

theorem recorded_nil : Recorded cfg chain [] found ↔ found = none := by
  constructor
  · intro h
    cases h with
    | none hnever => rfl
    | @some past later p account hsplit hregisters hlast => cases past <;> cases hsplit
  · rintro rfl
    exact .none nofun

theorem recorded_concat {passages : List Passage} {p : Passage} :
    Recorded cfg chain (passages ++ [p]) found ↔
      (∃ account, p.Registers cfg chain account ∧ found = some account) ∨
        Recorded cfg chain passages found ∧ ∀ account, ¬ p.Registers cfg chain account := by
  constructor
  · intro h
    cases h with
    | none hnever =>
        rw [List.forall_mem_append, List.forall_mem_singleton] at hnever
        exact .inr ⟨.none hnever.1, hnever.2⟩
    | @some past later q account hsplit hregisters hlast =>
        rcases concat_eq_append_cons hsplit with ⟨-, rfl, -⟩ | ⟨rest, rfl, rfl⟩
        · exact .inl ⟨account, hregisters, rfl⟩
        · rw [List.forall_mem_append, List.forall_mem_singleton] at hlast
          exact .inr ⟨.some rfl hregisters hlast.1, hlast.2⟩
  · rintro (⟨account, hregisters, rfl⟩ | ⟨hrecorded, hnot⟩)
    · exact .some rfl hregisters nofun
    · cases hrecorded with
      | none hnever =>
          exact .none (List.forall_mem_append.2 ⟨hnever, List.forall_mem_singleton.2 hnot⟩)
      | @some past later q account hsplit hregisters hlast =>
          have hsplit' : passages ++ [p] = past ++ q :: (later ++ [p]) := by simp [hsplit]
          have hlast' := List.forall_mem_append.2 ⟨hlast, List.forall_mem_singleton.2 hnot⟩
          exact .some hsplit' hregisters hlast'

theorem exists_recorded (cfg : Config) (chain : String) (passages : List Passage) :
    ∃ found, Recorded cfg chain passages found := by
  induction passages using List.reverseRecOn with
  | nil => exact ⟨none, recorded_nil.2 rfl⟩
  | append_singleton passages p ih =>
      by_cases hregisters : ∃ account, p.Registers cfg chain account
      · obtain ⟨account, hp⟩ := hregisters
        exact ⟨some account, recorded_concat.2 (.inl ⟨account, hp, rfl⟩)⟩
      · obtain ⟨found, hfound⟩ := ih
        exact ⟨found, recorded_concat.2 (.inr ⟨hfound, not_exists.1 hregisters⟩)⟩

/-- The store has on record for the chain what the passages leave. -/
def Shows (cfg : Config) (chain : String) (passages : List Passage) (s : Store) : Prop :=
  ∀ found, AccountRegistry.find? s chain = .ok found ↔ Recorded cfg chain passages found

theorem Shows.noted {passages : List Passage} {s : Store} (h : Shows cfg chain passages s)
    (p : Passage) : Shows cfg chain (passages ++ [p]) (p.noted cfg s) := by
  intro found
  rw [p.find?_noted_eq_ok, h found, recorded_concat]

/-! ## One step -/

/-- The passages of a step: a callback through each layer of its stack, from the outermost in. -/
def Step.passages : Step → List Passage
  | .callback layers c => layers.map fun layer => ⟨layer, c⟩
  | _ => []

theorem Shows.notedBy (layers : List Layer) (c : Callback) {passages : List Passage} {s : Store}
    (h : Shows cfg chain passages s) :
    Shows cfg chain (passages ++ (Step.callback layers c).passages) (notedBy cfg c layers s) := by
  induction layers generalizing passages s with
  | nil =>
      change Shows cfg chain (passages ++ []) s
      rw [List.append_nil]
      exact h
  | cons layer layers ih =>
      have hfirst := h.noted ⟨layer, c⟩
      have hrest := ih hfirst
      rw [List.append_assoc] at hrest
      exact hrest

/-- The application leaves the authorized accounts alone. -/
def SparesAccounts {β ω : Type} (app : Application β ω) : Prop :=
  ∀ chain, Spares (fun s => AccountRegistry.find? s chain) app

section Running

variable {β ω : Type} [Custodian β] {app : Application β ω}

theorem Shows.step (happ : SparesAccounts app) {passages : List Passage} {w : World β ω}
    (h : Shows cfg chain passages w.vault.store) (step : Step) :
    Shows cfg chain (passages ++ step.passages) (step.after cfg app w).vault.store := by
  have hread : AccountRegistry.find? (step.after cfg app w).vault.store chain =
      AccountRegistry.find? (step.noted cfg w.vault.store) chain :=
    read_step (happ chain)
      (fun _ _ hsame => AccountRegistry.find?_of_sameOutside hsame chain) step w
  have hnoted : Shows cfg chain (passages ++ step.passages) (step.noted cfg w.vault.store) := by
    cases step with
    | callback layers c => exact h.notedBy layers c
    | _ =>
        change Shows cfg chain (passages ++ []) w.vault.store
        rw [List.append_nil]
        exact h
  intro found
  rw [hread]
  exact hnoted found

/-! ## Any number of steps -/

/-- All passages of the steps, in their order. -/
def passages (steps : List Step) : List Passage := steps.flatMap Step.passages

theorem Shows.run (happ : SparesAccounts app) (steps : List Step) {past : List Passage}
    {w : World β ω} (h : Shows cfg chain past w.vault.store) :
    Shows cfg chain (past ++ passages steps) (run cfg app steps w).vault.store := by
  induction steps generalizing past w with
  | nil =>
      change Shows cfg chain (past ++ []) w.vault.store
      rw [List.append_nil]
      exact h
  | cons step steps ih =>
      have hrest := ih (h.step happ step)
      rw [List.append_assoc] at hrest
      exact hrest

/-- After any steps from no authorized accounts on, whatever directories and hosts say at each of
them and whatever the application answers: the account on record for a chain is the one that was
found when a channel of the host port last opened towards the chain, if one ever was. An account
layer always comes to the application inside it, so it never tries to keep an empty account, which
would fail. -/
theorem authorized_iff_recorded (cfg : Config) (happ : SparesAccounts app) (steps : List Step)
    {w : World β ω} (hempty : ∀ chain, AccountRegistry.find? w.vault.store chain = .ok none) :
    (∀ chain found,
      AccountRegistry.find? (Ibc.run cfg app steps w).vault.store chain = .ok found ↔
        Recorded cfg chain (passages steps) found) ∧
    (∀ chain, ∃ found,
      AccountRegistry.find? (Ibc.run cfg app steps w).vault.store chain = .ok found) ∧
    (∀ d host (inner : Application β ω) c v, ∃ requests, Account.layer cfg d host inner c v =
      inner c (v.noting ((Layer.account d host).noted cfg c v.vault.store) requests)) ∧
    ∀ chain s, AccountRegistry.set chain "" s = .error (.aborted .emptyValue) s := by
  have hrun : ∀ chain, Shows cfg chain (passages steps) (Ibc.run cfg app steps w).vault.store := by
    intro chain
    have hstart : Shows cfg chain [] w.vault.store := by
      intro found
      rw [hempty chain, recorded_nil, Except.ok.injEq, eq_comm]
    exact hstart.run happ steps
  refine ⟨hrun, ?_, ?_, AccountRegistry.set_blank⟩
  · intro chain
    obtain ⟨found, hfound⟩ := exists_recorded cfg chain (passages steps)
    exact ⟨found, (hrun chain found).2 hfound⟩
  · intro d host inner c v
    exact Account.layer_eq cfg d host inner c v

theorem authorized_iff_recorded_replaced :
    let controller := "icacontroller-maanydex-mint"
    let open3 : Endpoint := ⟨"icahost", "channel-3"⟩
    let d := ((({} : Registry).addTendermintChannel open3 "connection-0" "07-tendermint-0"
      "maanydex").setCounterpartyPort open3 controller).directory
    let other := (({} : Registry).addTendermintChannel open3 "connection-1" "07-tendermint-1"
      "maanydex-2").directory
    let host (account : Address) : Account.Host := fun connection port =>
      if connection = "connection-0" ∧ port = controller then some account else none
    let steps := [
      Step.callback [.account d (host "maany1first"), .transfer d] (.openConfirm open3),
      Step.claim ⟨"maany1relayer", "1", "maanydex"⟩,
      Step.callback [.account d (host "maany1second")] (.openAck ⟨open3, "channel-9", ""⟩),
      Step.callback [.account d (host "")] (.openConfirm open3),
      Step.callback [.account other fun _ _ => some "maany1other"] (.openConfirm open3),
      Step.callback [.account d (host "maany1third")] (.closeConfirm open3)]
    let w : World Balances (List Callback) := ⟨⟨.empty, .empty "maany"⟩, [], []⟩
    let after := run {} (recorder true) steps w
    (AccountRegistry.find? after.vault.store "maanydex" = .ok (some "maany1second") ∧
        AccountRegistry.find? after.vault.store "maany" = .ok none) ∧
      Recorded {} "maanydex" (passages steps) (some "maany1second") ∧
      Recorded {} "maany" (passages steps) none := by
  intro controller open3 d other host steps w after
  have hfound : AccountRegistry.find? after.vault.store "maanydex" = .ok (some "maany1second") ∧
      AccountRegistry.find? after.vault.store "maany" = .ok none := by decide +kernel
  have happ : SparesAccounts (recorder true : Application Balances (List Callback)) :=
    fun chain => spares_recorder _ true
  have hiff := (authorized_iff_recorded {} happ steps (w := w) fun _ => rfl).1
  exact ⟨hfound, (hiff "maanydex" _).1 hfound.1, (hiff "maany" _).1 hfound.2⟩

end Running

end Ibc

end Custody
