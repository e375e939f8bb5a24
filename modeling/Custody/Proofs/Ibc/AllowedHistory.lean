import Mathlib.Data.List.Induction
import Custody.Proofs.Ibc.Allowed
import Custody.Proofs.Ibc.Noted

/-!
# The history of the allowed channels

Which channels are allowed after a run is read off its steps: those that were found to lead to the
trusted chain when they opened, and have not been closed since.
-/

namespace Custody.Ibc

variable {β ω : Type}

/-! ## What allows a channel, and what takes it out -/

/-- The channel opens on the transfer port, and the directory of a transfer layer has the trusted
chain at its other end. -/
def Layer.Allows (cfg : Config) (channel : String) (c : Callback) : Layer → Prop
  | .transfer d => c.opened? = some ⟨cfg.transferPort, channel⟩ ∧
      (d.chainOf ⟨cfg.transferPort, channel⟩).run.value = .ok cfg.trustedChain
  | .account _ _ => False

/-- The channel is closed on the transfer port, and the layer is a transfer layer. -/
def Layer.Removes (cfg : Config) (channel : String) (c : Callback) : Layer → Prop
  | .transfer _ => c.closed? = some ⟨cfg.transferPort, channel⟩
  | .account _ _ => False

def Step.Allows (cfg : Config) (channel : String) : Step → Prop
  | .callback layers c => ∃ layer ∈ layers, layer.Allows cfg channel c
  | _ => False

def Step.Removes (cfg : Config) (channel : String) : Step → Prop
  | .callback layers c => ∃ layer ∈ layers, layer.Removes cfg channel c
  | _ => False

/-- Some step has allowed the channel, and no step after the last of these has removed it. -/
def Standing (cfg : Config) (channel : String) (steps : List Step) : Prop :=
  ∃ past step later, steps = past ++ step :: later ∧ step.Allows cfg channel ∧
    (∀ next ∈ later, ¬ next.Allows cfg channel) ∧ ∀ next ∈ later, ¬ next.Removes cfg channel

/-! ## One step -/

section Steps

variable {cfg : Config} {channel : String}

theorem contains_layer_noted (cfg : Config) (channel : String) (layer : Layer) (c : Callback)
    (s : Store) :
    ChannelSet.contains (layer.noted cfg c s) channel ↔
      layer.Allows cfg channel c ∨ ChannelSet.contains s channel ∧ ¬ layer.Removes cfg channel c := by
  cases layer with
  | transfer d =>
      rw [Transfer.contains_noted, Transfer.trusted_iff]
      exact Iff.rfl
  | account d host =>
      have hsame : ChannelSet.contains ((Layer.account d host).noted cfg c s) channel =
          ChannelSet.contains s channel := by
        unfold Layer.noted
        cases c.opened? with
        | none => rfl
        | some e =>
            simp only [Account.authorized]
            cases Account.found? cfg d host e with
            | none => rfl
            | some found =>
                simp only [ChannelSet.contains, Store.get_insert]
                rw [if_neg (Store.Key.account_ne_channel found.1 channel).symm]
      rw [hsame]
      simp [Layer.Allows, Layer.Removes]

theorem Layer.not_removes_of_allows {layer layer' : Layer} {c : Callback}
    (h : layer.Allows cfg channel c) : ¬ layer'.Removes cfg channel c := by
  cases layer with
  | transfer d =>
      cases layer' with
      | transfer d' =>
          intro hremoves
          have hclosed : c.closed? = none := Callback.closed?_of_opened? h.1
          cases hclosed.symm.trans hremoves
      | account d' host => exact not_false
  | account d host => exact h.elim

theorem contains_notedBy (layers : List Layer) (c : Callback) (s : Store) :
    ChannelSet.contains (notedBy cfg c layers s) channel ↔
      (∃ layer ∈ layers, layer.Allows cfg channel c) ∨
        ChannelSet.contains s channel ∧ ¬ ∃ layer ∈ layers, layer.Removes cfg channel c := by
  induction layers generalizing s with
  | nil => simp [notedBy]
  | cons layer layers ih =>
      have hnoted := contains_layer_noted cfg channel layer c s
      have hexclusive : layer.Allows cfg channel c →
          ¬ ∃ next ∈ layers, next.Removes cfg channel c := by
        rintro hallows ⟨next, -, hremoves⟩
        exact Layer.not_removes_of_allows hallows hremoves
      change ChannelSet.contains (notedBy cfg c layers (layer.noted cfg c s)) channel ↔ _
      rw [ih, hnoted]
      simp only [List.mem_cons, exists_eq_or_imp]
      by_cases hallows : layer.Allows cfg channel c
      · exact iff_of_true (.inr ⟨.inl hallows, hexclusive hallows⟩) (.inl (.inl hallows))
      · simp only [hallows, false_or, not_or, and_assoc]

variable [Custodian β] {app : Application β ω}

theorem contains_of_sameOutside {s t : Store} (h : Ledger.SameOutside s t) (channel : String) :
    ChannelSet.contains s channel = ChannelSet.contains t channel := by
  unfold ChannelSet.contains
  rw [h _ (Store.Key.not_ofLedger_channel channel)]

/-- What a step makes of the allowed set, whatever comes of it. -/
theorem contains_step (happ : Transfer.SparesChannels app) (step : Step) (w : World β ω) :
    ChannelSet.contains (step.after cfg app w).vault.store channel ↔
      step.Allows cfg channel ∨
        ChannelSet.contains w.vault.store channel ∧ ¬ step.Removes cfg channel := by
  have hnoted : ChannelSet.contains (step.after cfg app w).vault.store channel =
      ChannelSet.contains (step.noted cfg w.vault.store) channel :=
    read_step (fun c w => happ c w channel) (fun _ _ hsame => contains_of_sameOutside hsame channel)
      step w
  rw [hnoted]
  cases step with
  | callback layers c => exact contains_notedBy layers c w.vault.store
  | _ => simp [Step.noted, Step.Allows, Step.Removes]

end Steps

/-! ## Any number of steps -/

section Runs

variable {cfg : Config} {channel : String} {steps : List Step}

theorem not_standing_nil : ¬ Standing cfg channel [] := by
  rintro ⟨past, step, later, hsteps, -⟩
  cases past <;> cases hsteps

theorem standing_concat {step : Step} : Standing cfg channel (steps ++ [step]) ↔
    step.Allows cfg channel ∨ Standing cfg channel steps ∧ ¬ step.Removes cfg channel := by
  constructor
  · rintro ⟨past, x, later, hsteps, hallows, hlast, hremoves⟩
    rcases concat_eq_append_cons hsteps with ⟨-, rfl, -⟩ | ⟨rest, rfl, rfl⟩
    · exact .inl hallows
    · rw [List.forall_mem_append, List.forall_mem_singleton] at hlast hremoves
      exact .inr ⟨⟨past, x, rest, rfl, hallows, hlast.1, hremoves.1⟩, hremoves.2⟩
  · intro h
    by_cases hallows : step.Allows cfg channel
    · exact ⟨steps, step, [], rfl, hallows, nofun, nofun⟩
    · obtain ⟨⟨past, x, later, rfl, hx, hlast, hremoves⟩, hstep⟩ := h.resolve_left hallows
      refine ⟨past, x, later ++ [step], by simp, hx, ?_, ?_⟩
      · exact List.forall_mem_append.2 ⟨hlast, List.forall_mem_singleton.2 hallows⟩
      · exact List.forall_mem_append.2 ⟨hremoves, List.forall_mem_singleton.2 hstep⟩

variable [Custodian β] {app : Application β ω}

/-- From no allowed channels on, exactly the channels in standing are allowed. -/
theorem contains_run (happ : Transfer.SparesChannels app) {w : World β ω}
    (hempty : ¬ ChannelSet.contains w.vault.store channel) :
    ChannelSet.contains (run cfg app steps w).vault.store channel ↔
      Standing cfg channel steps := by
  induction steps using List.reverseRecOn with
  | nil => exact iff_of_false hempty not_standing_nil
  | append_singleton steps step ih =>
      rw [run_concat, contains_step happ, ih, standing_concat]

/-- A channel that opens without leading to the trusted chain, or that cannot be followed at all,
changes nothing in the allowed set. -/
theorem contains_untrusted (happ : Transfer.SparesChannels app) {layers : List Layer}
    {c : Callback} {e : Endpoint} (hopened : c.opened? = some e)
    (huntrusted : ∀ d, Layer.transfer d ∈ layers →
      (d.chainOf e).run.value ≠ .ok cfg.trustedChain) (w : World β ω) :
    ChannelSet.contains ((Step.callback layers c).after cfg app w).vault.store channel ↔
      ChannelSet.contains w.vault.store channel := by
  have hallows : ¬ (Step.callback layers c).Allows cfg channel := by
    rintro ⟨layer, hlayer, hallows⟩
    cases layer with
    | transfer d =>
        obtain rfl := Option.some.inj (hopened.symm.trans hallows.1)
        exact huntrusted d hlayer hallows.2
    | account d host => exact hallows
  have hremoves : ¬ (Step.callback layers c).Removes cfg channel := by
    rintro ⟨layer, -, hremoves⟩
    cases layer with
    | transfer d => cases (Callback.closed?_of_opened? hopened).symm.trans hremoves
    | account d host => exact hremoves
  rw [contains_step happ, or_iff_right hallows, and_iff_left hremoves]

/-- After any steps from no allowed channels on, whatever the directories say at each of them and
whatever the application answers: a channel is allowed exactly if some step has opened it on the
transfer port with the trusted chain at its other end, and no step after the last such one has
closed it there. An opening that leads elsewhere, or nowhere, changes nothing. -/
theorem allowed_iff_standing (cfg : Config) (happ : Transfer.SparesChannels app)
    (steps : List Step) {w : World β ω}
    (hempty : ∀ channel, ¬ ChannelSet.contains w.vault.store channel) :
    (∀ channel, ChannelSet.contains (run cfg app steps w).vault.store channel ↔
      Standing cfg channel steps) ∧
    ∀ layers c e, c.opened? = some e →
      (∀ d, Layer.transfer d ∈ layers → (d.chainOf e).run.value ≠ .ok cfg.trustedChain) →
      ∀ (v : World β ω) channel,
        ChannelSet.contains ((Step.callback layers c).after cfg app v).vault.store channel ↔
          ChannelSet.contains v.vault.store channel := by
  constructor
  · intro channel
    exact contains_run happ (hempty channel)
  · intro layers c e hopened huntrusted v channel
    exact contains_untrusted happ hopened huntrusted v

theorem allowed_iff_standing_reopened :
    let trusting := (({} : Registry).addTendermintChannel ⟨"transfer", "channel-4"⟩
      "connection-4" "07-tendermint-0" "maanydex").directory
    let other := (({} : Registry).addTendermintChannel ⟨"transfer", "channel-5"⟩
      "connection-5" "07-tendermint-5" "osmosis-1").directory
    let steps := [
      Step.callback [.transfer trusting] (.openAck ⟨⟨"transfer", "channel-4"⟩, "channel-7", ""⟩),
      Step.callback [.transfer other] (.closeInit ⟨"transfer", "channel-4"⟩),
      Step.claim ⟨"maany1relayer", "1", "maanydex"⟩,
      Step.callback [.transfer trusting] (.openConfirm ⟨"transfer", "channel-4"⟩),
      Step.callback [.transfer other] (.openConfirm ⟨"transfer", "channel-4"⟩),
      Step.callback [.transfer other] (.openAck ⟨⟨"transfer", "channel-5"⟩, "channel-8", ""⟩)]
    let w : World Balances (List Callback) := ⟨⟨.empty, .empty "maany"⟩, [], []⟩
    let after := run {} (recorder true) steps w
    (ChannelSet.contains after.vault.store "channel-4" ∧
        ¬ ChannelSet.contains after.vault.store "channel-5") ∧
      Standing {} "channel-4" steps ∧ ¬ Standing {} "channel-5" steps := by
  intro trusting other steps w after
  have hallowed : ChannelSet.contains after.vault.store "channel-4" ∧
      ¬ ChannelSet.contains after.vault.store "channel-5" := by decide +kernel
  have hiff := (allowed_iff_standing {} (Transfer.sparesChannels_recorder true) steps (w := w)
    fun _ => Bool.false_ne_true).1
  exact ⟨hallowed, (hiff "channel-4").1 hallowed.1, fun h => hallowed.2 ((hiff "channel-5").2 h)⟩

end Runs

end Custody.Ibc
