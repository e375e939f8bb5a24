import Mathlib.Control.Monad.Basic
import Custody.Bank.Balances
import Custody.Proofs.Ibc.Passage
import Custody.Proofs.Ibc.Run

/-!
# Allowed channels

A callback puts a channel into the allowed set, or takes one out. What is in the set leads to the
trusted chain, by the client that the counterparty names on its side of the connection.
-/

namespace Custody

open Store (Key.channel)

namespace ChannelSet

theorem contains_insert (s : Store) (channel c : String) :
    contains (insert s channel) c ↔ c = channel ∨ contains s c := by
  simp only [contains, insert, Store.get_insert, Store.Key.channel_inj]
  split
  · rename_i hsame
    exact iff_of_true rfl (.inl hsame)
  · rename_i hother
    exact (or_iff_right hother).symm

theorem contains_erase (s : Store) (channel c : String) :
    contains (erase s channel) c ↔ contains s c ∧ c ≠ channel := by
  simp only [contains, erase, Store.get_erase, Store.Key.channel_inj]
  split
  · rename_i hsame
    exact iff_of_false Bool.false_ne_true fun h => h.2 hsame
  · rename_i hother
    exact (and_iff_left hother).symm

end ChannelSet

namespace Ibc

namespace Transfer

open Operation

variable {β ω : Type} {cfg : Config} {d : Directory}

/-! ## One callback -/

/-- The trusted chain is at the other end. -/
def Trusted (cfg : Config) (d : Directory) (e : Endpoint) : Prop :=
  ∃ identity, d.Leads e identity ∧ identity.chain = cfg.trustedChain

theorem trusted_iff {e : Endpoint} :
    Trusted cfg d e ↔ (d.chainOf e).run.value = .ok cfg.trustedChain :=
  Directory.chainOf_eq_ok.symm

theorem endpoint_eq_iff {e : Endpoint} {port channel : String} :
    e = ⟨port, channel⟩ ↔ e.port = port ∧ e.channel = channel := by
  cases e
  rw [Endpoint.mk.injEq]

theorem contains_admitted (cfg : Config) (d : Directory) (e : Endpoint) (s : Store)
    (channel : String) : ChannelSet.contains (admitted cfg d e s) channel ↔
      e = ⟨cfg.transferPort, channel⟩ ∧ Trusted cfg d e ∨ ChannelSet.contains s channel := by
  unfold admitted
  by_cases hport : e.port = cfg.transferPort
  · rw [if_pos hport]
    simp only [endpoint_eq_iff, hport, true_and, trusted_iff]
    cases (d.chainOf e).run.value with
    | error why => exact (or_iff_right fun h => nomatch h.2).symm
    | ok chain =>
        simp only [Except.ok.injEq]
        by_cases htrusted : chain = cfg.trustedChain
        · rw [if_pos htrusted]
          simp only [htrusted, and_true, eq_comm (a := e.channel)]
          exact ChannelSet.contains_insert s e.channel channel
        · rw [if_neg htrusted]
          exact (or_iff_right fun h => htrusted h.2).symm
  · rw [if_neg hport]
    refine (or_iff_right ?_).symm
    rintro ⟨rfl, -⟩
    exact hport rfl

theorem contains_dismissed (cfg : Config) (e : Endpoint) (s : Store) (channel : String) :
    ChannelSet.contains (dismissed cfg e s) channel ↔
      ChannelSet.contains s channel ∧ e ≠ ⟨cfg.transferPort, channel⟩ := by
  unfold dismissed
  by_cases hport : e.port = cfg.transferPort
  · rw [if_pos hport]
    simp only [Ne, endpoint_eq_iff, hport, true_and, eq_comm (a := e.channel)]
    exact ChannelSet.contains_erase s e.channel channel
  · rw [if_neg hport]
    refine (and_iff_left ?_).symm
    rintro rfl
    exact hport rfl

/-- What the layer notes on a callback. -/
theorem contains_noted (c : Callback) (s : Store) (channel : String) :
    ChannelSet.contains ((Layer.transfer d).noted cfg c s) channel ↔
      c.opened? = some ⟨cfg.transferPort, channel⟩ ∧ Trusted cfg d ⟨cfg.transferPort, channel⟩ ∨
        ChannelSet.contains s channel ∧ c.closed? ≠ some ⟨cfg.transferPort, channel⟩ := by
  unfold Layer.noted
  cases hopened : c.opened? with
  | none =>
      cases hclosed : c.closed? with
      | none => simp
      | some e => simp [contains_dismissed]
  | some e =>
      have hsame : e = ⟨cfg.transferPort, channel⟩ →
          (Trusted cfg d e ↔ Trusted cfg d ⟨cfg.transferPort, channel⟩) := by
        rintro rfl
        exact Iff.rfl
      rw [Callback.closed?_of_opened? hopened]
      simp only [contains_admitted, Option.some.injEq, and_congr_right hsame, ne_eq, reduceCtorEq,
        not_false_eq_true, and_true]

/-- The application leaves the allowed channels alone. -/
def SparesChannels (app : Application β ω) : Prop :=
  ∀ c w channel, ChannelSet.contains ((app c).after w).vault.store channel =
    ChannelSet.contains w.vault.store channel

theorem sparesChannels_recorder (refuses : Bool) :
    SparesChannels (recorder refuses : Application β (List Callback)) := by
  intro c w channel
  rw [after_recorder]

variable [Custodian β]

theorem contains_forward {app : Application β ω} (happ : SparesChannels app) (c : Callback)
    (w : World β ω) (channel : String) :
    ChannelSet.contains ((forward cfg app c).after w).vault.store channel =
      ChannelSet.contains w.vault.store channel := by
  have hkeeps : Keeps (fun w' => ChannelSet.contains w'.vault.store channel =
      ChannelSet.contains w.vault.store channel) (forward cfg app c) := by
    apply keeps_forward
    · intro w' p relayer escrow receiver coin bank _ _ _ hw'
      exact hw'
    · intro w' hw'
      exact (happ c w' channel).trans hw'
  exact hkeeps w rfl

/-- What a callback makes of the allowed set, whatever the application answers. -/
theorem contains_layer {app : Application β ω} (happ : SparesChannels app) (c : Callback)
    (w : World β ω) (channel : String) :
    ChannelSet.contains ((layer cfg d app c).after w).vault.store channel ↔
      c.opened? = some ⟨cfg.transferPort, channel⟩ ∧ Trusted cfg d ⟨cfg.transferPort, channel⟩ ∨
        ChannelSet.contains w.vault.store channel ∧
          c.closed? ≠ some ⟨cfg.transferPort, channel⟩ := by
  obtain ⟨requests, hlayer⟩ := layer_eq cfg d app c w
  rw [after, hlayer, ← after, contains_forward happ]
  exact contains_noted c w.vault.store channel

theorem layer_withOwnClients (own : String → String) (app : Application β ω) :
    layer cfg (d.withOwnClients own) app = layer cfg d app := by
  have hchain : ∀ e, (d.withOwnClients own).chainOf e = d.chainOf e := by
    intro e
    rw [Directory.chainOf, Directory.resolve_withOwnClients]
    rfl
  funext c
  unfold layer track
  simp only [hchain]

/-! ## Any number of callbacks -/

/-- The callbacks, each of them through the layer. -/
def through (d : Directory) (callbacks : List Callback) : List Step :=
  callbacks.map (.callback [.transfer d])

variable {app : Application β ω}

theorem trusted_run (happ : SparesChannels app) {callbacks : List Callback} {w : World β ω}
    (h : ∀ channel, ChannelSet.contains w.vault.store channel →
      Trusted cfg d ⟨cfg.transferPort, channel⟩) :
    ∀ channel, ChannelSet.contains (run cfg app (through d callbacks) w).vault.store channel →
      Trusted cfg d ⟨cfg.transferPort, channel⟩ := by
  apply run_keeps (P := fun w => ∀ channel, ChannelSet.contains w.vault.store channel →
    Trusted cfg d ⟨cfg.transferPort, channel⟩) _ h
  intro step hstep w hw channel hcontains
  obtain ⟨c, -, rfl⟩ := List.mem_map.1 hstep
  rcases (contains_layer happ c w channel).1 hcontains with ⟨-, htrusted⟩ | ⟨hbefore, -⟩
  · exact htrusted
  · exact hw channel hbefore

theorem run_withOwnClients (own : String → String) (callbacks : List Callback) (w : World β ω) :
    run cfg app (through (d.withOwnClients own) callbacks) w =
      run cfg app (through d callbacks) w := by
  unfold through
  induction callbacks generalizing w with
  | nil => rfl
  | cons c callbacks ih =>
      have hstep : (Step.callback [.transfer (d.withOwnClients own)] c).after cfg app w =
          (Step.callback [.transfer d] c).after cfg app w :=
        congrArg (fun inner : Application β ω => (inner c).after w) (layer_withOwnClients own app)
      simp only [List.map_cons, run, List.foldl_cons, hstep]
      exact ih _

/-- Whatever has been called back, starting without allowed channels: every one allowed leads over
its first connection to a client of the trusted chain, which is the one that the counterparty names
there. What this chain follows the other side with makes no difference to anything. -/
theorem allowed_by_counterparty_client (cfg : Config) (d : Directory) (happ : SparesChannels app)
    (callbacks : List Callback) {w : World β ω}
    (hempty : ∀ channel, ¬ ChannelSet.contains w.vault.store channel) :
    (∀ channel, ChannelSet.contains (run cfg app (through d callbacks) w).vault.store channel →
      Trusted cfg d ⟨cfg.transferPort, channel⟩) ∧
    ∀ own, run cfg app (through (d.withOwnClients own) callbacks) w =
      run cfg app (through d callbacks) w := by
  constructor
  · apply trusted_run happ
    intro channel hcontains
    exact absurd hcontains (hempty channel)
  · intro own
    exact run_withOwnClients own callbacks w

theorem allowed_by_counterparty_client_two_chains :
    let r := (({} : Registry).addTendermintChannel ⟨"transfer", "channel-4"⟩
      "connection-4" "07-tendermint-0" "maanydex").addTendermintChannel ⟨"transfer", "channel-5"⟩
      "connection-5" "07-tendermint-5" "osmosis-1"
    let callbacks := [Callback.openAck ⟨⟨"transfer", "channel-4"⟩, "channel-7", "ics20-1"⟩,
      Callback.openConfirm ⟨"transfer", "channel-5"⟩]
    let w : World Balances (List Callback) := ⟨⟨.empty, .empty "maany"⟩, [], []⟩
    let after := run {} (recorder false) (through r.directory callbacks) w
    (ChannelSet.contains after.vault.store "channel-4" ∧
        ¬ ChannelSet.contains after.vault.store "channel-5") ∧
      Trusted {} r.directory ⟨"transfer", "channel-4"⟩ ∧
      ∀ own, run {} (recorder false) (through (r.directory.withOwnClients own) callbacks) w =
        after := by
  intro r callbacks w after
  have hallowed : ChannelSet.contains after.vault.store "channel-4" ∧
      ¬ ChannelSet.contains after.vault.store "channel-5" := by decide +kernel
  have hboth := allowed_by_counterparty_client {} r.directory (sparesChannels_recorder false)
    callbacks (w := w) fun _ => Bool.false_ne_true
  exact ⟨hallowed, hboth.1 "channel-4" hallowed.1, hboth.2⟩

/-- The client that this chain follows the other side with may be of another chain altogether. -/
theorem allowed_despite_own_client :
    let r := (((({} : Registry).addChannel ⟨"transfer", "channel-4"⟩ ["connection-4"]).addConnection
      "connection-4" "07-tendermint-5" "07-tendermint-0").addClient
      "07-tendermint-5" (.tendermint ⟨"osmosis-1", 9⟩)).addClient
      "07-tendermint-0" (.tendermint ⟨"maanydex", 3⟩)
    let callbacks := [Callback.openAck ⟨⟨"transfer", "channel-4"⟩, "channel-7", "ics20-1"⟩]
    let w : World Balances (List Callback) := ⟨⟨.empty, .empty "maany"⟩, [], []⟩
    let after := run {} (recorder false) (through r.directory callbacks) w
    ChannelSet.contains after.vault.store "channel-4" ∧
      (r.channels.get? ⟨"transfer", "channel-4"⟩).map (·.hops) = some ["connection-4"] ∧
      (r.connections.get? "connection-4").map (·.client) = some "07-tendermint-5" ∧
      r.clients.get? "07-tendermint-5" = some (.tendermint ⟨"osmosis-1", 9⟩) ∧
      "osmosis-1" ≠ ({} : Config).trustedChain := by
  decide +kernel

end Transfer

end Ibc

end Custody
