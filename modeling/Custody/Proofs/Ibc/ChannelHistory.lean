import Mathlib.Control.Monad.Basic
import Custody.Bank.Balances
import Custody.Proofs.Contract.Reached
import Custody.Proofs.Ibc.Noted
import Custody.Proofs.Ledger.Channels

/-!
# The history of the channel set

Channels are put in and taken out, by themselves or by layers on a callback, and everything else
that happens to the store in between makes no difference to the set. So the list shows the channels
that have not been taken out since they were last put in.
-/

namespace Custody

open Operation (Keeps)
open Store (AgreeOn)
open Store.Key (Family)

/-! ## What commands leave alone -/

namespace Contract

open Ledger (SameOutside)

variable {s : Store}

theorem after_withFunds (env : Env) (call : Call) (x : Operation (Vault AttachedFunds) α)
    (s : Store) :
    (withFunds env call x).after s = (x.after ⟨s, { contract := env.contract, call }⟩).store := by
  unfold withFunds Operation.after
  cases h : x ⟨s, { contract := env.contract, call }⟩ with
  | ok a v => simp only [h]
  | error e v => simp only [h]

theorem keeps_withFunds {env : Env} {call : Call} {x : Operation (Vault AttachedFunds) α}
    (hx : ∀ v, SameOutside (x.after v).store v.store) :
    Keeps (fun t => SameOutside t s) (withFunds env call x) := by
  intro t ht
  rw [after_withFunds]
  exact (hx _).trans ht

/-- A command writes to the ledger only, whether or not it fails. -/
theorem sameOutside_execute (env : Env) (call : Call) (command : Command) (s : Store) :
    SameOutside ((execute env call command).after s) s := by
  have hkeeps : Keeps (fun t => SameOutside t s) (execute env call command) := by
    unfold execute
    refine Keeps.bind (Keeps.reading _) ?_
    intro cfg
    cases command with
    | initiate chain amount recipient expiryHeight expiryTime =>
        unfold initiate
        refine Keeps.bind (Keeps.lift _) ?_
        intro u
        exact Keeps.bind (keeps_withFunds (Vault.sameOutside_initiate cfg _)) fun _ => Keeps.pure _
    | cancel chain denom =>
        unfold cancel
        refine Keeps.bind (Keeps.lift _) ?_
        intro u
        refine Keeps.bind (Keeps.lift _) ?_
        intro u'
        exact Keeps.bind (keeps_withFunds (Vault.sameOutside_cancel cfg _)) fun _ => Keeps.pure _
    | claim id chain =>
        unfold claim
        refine Keeps.bind (Keeps.lift _) ?_
        intro u
        refine Keeps.bind (Keeps.lift _) ?_
        intro u'
        exact Keeps.bind (keeps_withFunds (Vault.sameOutside_claim _)) fun _ => Keeps.pure _
  exact hkeeps s (.refl s)

/-- Setting up writes the version and the configuration, or nothing. -/
theorem sameBut_instantiate (setup : Setup) (s : Store) :
    Ledger.SameBut [.version, .config] ((instantiate setup).after s) s := by
  unfold instantiate
  simp only
  split
  · exact .refl s
  · cases hdenom : requireDenom setup.config.baseDenom with
    | error e => exact .refl s
    | ok u => exact Ledger.sameBut_setUp setup.config s

end Contract

namespace Ledger

theorem SameOutside.agreeOn_channel {s t : Store} (h : SameOutside t s) :
    AgreeOn Family.channel.Holds t s := by
  intro key hkey
  exact h key (not_ofLedger_of_holds (by decide) hkey)

theorem SameBut.agreeOn {families : List Family} {f : Family} (hf : f ∉ families) {s t : Store}
    (h : SameBut families t s) : AgreeOn f.Holds t s := by
  intro key hkey
  apply h key
  rintro ⟨g, hg, hholds⟩
  exact hf (hkey.unique hholds ▸ hg)

theorem agreeOn_of_ofFamily {f : Family} {s t : Store} (h : ofFamily f s = ofFamily f t) :
    AgreeOn f.Holds s t := by
  intro key hkey
  have hmem : ∀ (u : Store) (value : Bytes),
      (key, value) ∈ ofFamily f u ↔ u.get key = some value := by
    intro u value
    rw [ofFamily, List.mem_filter, Store.mem_entries_iff]
    exact and_iff_left (decide_eq_true hkey)
  apply Option.ext
  intro value
  rw [← hmem, ← hmem, h]

end Ledger

namespace ChannelSet

open Ibc (Application Callback Layer World Spares notedBy stack)

/-! ## What happens to the set -/

inductive Event where
  | inserted (channel : String)
  | erased (channel : String)

/-- The channel has been put in, and not been taken out since the last time that it was. -/
def Standing (events : List Event) (channel : String) : Prop :=
  ∃ past later, events = past ++ .inserted channel :: later ∧
    .inserted channel ∉ later ∧ .erased channel ∉ later

theorem not_standing_nil (channel : String) : ¬ Standing [] channel := by
  rintro ⟨past, later, hevents, -⟩
  cases past <;> cases hevents

theorem standing_concat {events : List Event} {e : Event} {channel : String} :
    Standing (events ++ [e]) channel ↔
      e = .inserted channel ∨ Standing events channel ∧ e ≠ .erased channel := by
  constructor
  · rintro ⟨past, later, hevents, hlast, herased⟩
    rcases Ibc.concat_eq_append_cons hevents with ⟨-, rfl, -⟩ | ⟨rest, rfl, rfl⟩
    · exact .inl rfl
    · rw [List.mem_append, not_or] at hlast herased
      exact .inr ⟨⟨past, rest, rfl, hlast.1, herased.1⟩, fun h => herased.2 (by simp [h])⟩
  · intro h
    by_cases hlast : e = .inserted channel
    · exact ⟨events, [], by rw [hlast], nofun, nofun⟩
    · obtain ⟨⟨past, later, rfl, hinserted, herased⟩, hne⟩ := h.resolve_left hlast
      refine ⟨past, later ++ [e], by simp, ?_, ?_⟩
      · simp [hinserted, Ne.symm hlast]
      · simp [herased, Ne.symm hne]

/-- The members are the channels in standing. -/
def Shows (s : Store) (events : List Event) : Prop := Members s (Standing events)

section Changes

variable {s t : Store} {events : List Event}

theorem shows_empty : Shows .empty [] := by
  have hnone : Standing [] = fun _ => False := funext fun channel =>
    eq_false (not_standing_nil channel)
  rw [Shows, hnone]
  exact members_empty

theorem Shows.congr (h : Shows s events) (hsame : AgreeOn Family.channel.Holds t s) :
    Shows t events :=
  Members.congr h hsame

theorem Shows.inserted (h : Shows s events) (channel : String) :
    Shows (insert s channel) (events ++ [.inserted channel]) := by
  have hnext : Standing (events ++ [.inserted channel]) =
      fun id => id = channel ∨ Standing events id := by
    funext id
    simp [standing_concat, eq_comm]
  rw [Shows, hnext]
  exact Members.insert h channel

theorem Shows.erased (h : Shows s events) (channel : String) :
    Shows (erase s channel) (events ++ [.erased channel]) := by
  have hnext : Standing (events ++ [.erased channel]) =
      fun id => Standing events id ∧ id ≠ channel := by
    funext id
    simp [standing_concat, eq_comm]
  rw [Shows, hnext]
  exact Members.erase h channel

end Changes

end ChannelSet

/-! ## What layers do to the set -/

namespace Ibc

open ChannelSet (Event)

/-- What the layer does to the set on a callback. -/
def Layer.events (cfg : Config) (c : Callback) : Layer → List Event
  | .transfer d =>
    match c.opened?, c.closed? with
    | some e, _ =>
      if e.port = cfg.transferPort ∧ (d.chainOf e).run.value = .ok cfg.trustedChain then
        [.inserted e.channel]
      else []
    | none, some e => if e.port = cfg.transferPort then [.erased e.channel] else []
    | none, none => []
  | .account _ _ => []

variable {cfg : Config} {s : Store} {events : List Event}

theorem Transfer.shows_admitted (h : ChannelSet.Shows s events) (d : Directory) (e : Endpoint) :
    ChannelSet.Shows (admitted cfg d e s) (events ++
      if e.port = cfg.transferPort ∧ (d.chainOf e).run.value = .ok cfg.trustedChain then
        [.inserted e.channel]
      else []) := by
  unfold admitted
  by_cases hport : e.port = cfg.transferPort
  · rw [if_pos hport]
    cases hchain : (d.chainOf e).run.value with
    | error why => simpa using h
    | ok chain =>
        by_cases htrusted : chain = cfg.trustedChain
        · simpa [hport, htrusted] using h.inserted e.channel
        · simpa [htrusted] using h
  · simpa [hport] using h

theorem Transfer.shows_dismissed (h : ChannelSet.Shows s events) (e : Endpoint) :
    ChannelSet.Shows (dismissed cfg e s)
      (events ++ if e.port = cfg.transferPort then [.erased e.channel] else []) := by
  unfold dismissed
  by_cases hport : e.port = cfg.transferPort
  · rw [if_pos hport, if_pos hport]
    exact h.erased e.channel
  · rw [if_neg hport, if_neg hport, List.append_nil]
    exact h

theorem Layer.shows_noted (h : ChannelSet.Shows s events) (c : Callback) (layer : Layer) :
    ChannelSet.Shows (layer.noted cfg c s) (events ++ layer.events cfg c) := by
  cases layer with
  | transfer d =>
      unfold Layer.noted Layer.events
      cases c.opened? with
      | some e => exact Transfer.shows_admitted h d e
      | none =>
          cases c.closed? with
          | some e => exact Transfer.shows_dismissed h e
          | none => simpa using h
  | account d host =>
      rw [Layer.events, List.append_nil]
      unfold Layer.noted
      cases c.opened? with
      | none => exact h
      | some e =>
          simp only [Account.authorized]
          cases Account.found? cfg d host e with
          | none => exact h
          | some found =>
              have hset : Ledger.SameBut [.account] _ s := Ledger.sameBut_insert
                (x := .account found.1) List.mem_cons_self s (Bytes.ofString found.2)
              exact h.congr (hset.agreeOn (by decide))

theorem shows_notedBy (h : ChannelSet.Shows s events) (c : Callback) (layers : List Layer) :
    ChannelSet.Shows (notedBy cfg c layers s) (events ++ layers.flatMap (Layer.events cfg c)) := by
  induction layers generalizing s events with
  | nil => simpa [notedBy] using h
  | cons layer layers ih =>
      rw [List.flatMap_cons, ← List.append_assoc]
      exact ih (layer.shows_noted h c)

end Ibc

/-! ## Any operations -/

namespace ChannelSet

open Ibc (Application Callback Layer Registry Spares World stack)

/-- A store that has come about from an empty one, with what has happened to the set on the way. An
operation may have failed: what it wrote before stays. -/
inductive History : List Event → Store → Prop
  | empty : History [] .empty
  | inserted {events : List Event} {s : Store} (h : History events s) (channel : String) :
      History (events ++ [.inserted channel]) (insert s channel)
  | erased {events : List Event} {s : Store} (h : History events s) (channel : String) :
      History (events ++ [.erased channel]) (erase s channel)
  | changed {events : List Event} {s : Store} (h : History events s) (c : Ledger.Change)
      (hother : Family.channel ∉ c.families) : History events (c.after s)
  | acted {β : Type} [Custodian β] {events : List Event} {s : Store} (h : History events s)
      (cfg : Config) (bank : β) (a : Vault.Action) : History events (a.after cfg ⟨s, bank⟩).store
  | instantiated {events : List Event} {s : Store} (h : History events s) (setup : Setup) :
      History events ((Contract.instantiate setup).after s)
  | called {events : List Event} {s : Store} (h : History events s) (env : Contract.Env)
      (call : Call) (command : Command) :
      History events ((Contract.execute env call command).after s)
  | calledBack {β ω : Type} [Custodian β] {events : List Event} {w : World β ω}
      (h : History events w.vault.store) (cfg : Config) (layers : List Layer)
      {app : Application β ω} (happ : Spares (Ledger.ofFamily .channel) app) (c : Callback) :
      History (events ++ layers.flatMap (Layer.events cfg c))
        ((stack cfg layers app c).after w).vault.store

theorem History.shows {events : List Event} {s : Store} (h : History events s) :
    Shows s events := by
  induction h with
  | empty => exact shows_empty
  | inserted _ channel ih => exact ih.inserted channel
  | erased _ channel ih => exact ih.erased channel
  | changed _ c hother ih => exact ih.congr (Ledger.SameBut.agreeOn hother (c.sameBut _))
  | acted _ cfg bank a ih =>
      apply ih.congr
      cases a with
      | initiate m inMemory => exact (Vault.sameOutside_initiate cfg m _).agreeOn_channel
      | cancel m => exact (Vault.sameOutside_cancel cfg m _).agreeOn_channel
      | claim m => exact (Vault.sameOutside_claim m _).agreeOn_channel
  | instantiated _ setup ih =>
      exact ih.congr ((Contract.sameBut_instantiate setup _).agreeOn (by decide))
  | called _ env call command ih =>
      exact ih.congr (Contract.sameOutside_execute env call command _).agreeOn_channel
  | @calledBack β ω _ events w _ cfg layers app happ c ih =>
      apply (Ibc.shows_notedBy ih c layers).congr
      exact Ledger.agreeOn_of_ofFamily (Ibc.read_stack happ layers c w)

/-- Whatever else happens to the store in between: the list has no errors and shows the members,
which are the channels that have not been taken out since they were last put in, each once and in
the byte order of their names. The end of the scan is the least key above all keys that begin as the
scan does. -/
theorem members_listed {events : List Event} {s : Store} (h : History events s) :
    (∃ ids, toList s = .ok ids ∧
      (ids.Pairwise fun a b => Bytes.ofString a < Bytes.ofString b) ∧
      (∀ id, id ∈ ids ↔ contains s id) ∧
      ∀ id, contains s id ↔ Standing events id) ∧
    ∀ start, Store.Key.Bounded start →
      IsLeast {bound | ∀ key, start <+: key → key < bound} (Store.Key.startEnd start) := by
  constructor
  · obtain ⟨ids, hlist, hsorted, hids⟩ := Members.toList h.shows
    have hcontains := Members.contains h.shows
    refine ⟨ids, hlist, hsorted, ?_, hcontains⟩
    intro id
    rw [hids, hcontains]
  · intro start
    exact Store.Key.isLeast_startEnd

/-- One name is the beginning of another, one has bytes above 127, one has been taken out, and the
empty one is put in by a layer. -/
theorem members_listed_prefixes :
    let d := (({} : Registry).addTendermintChannel ⟨"transfer", ""⟩ "connection-0"
      "07-tendermint-0" "maanydex").directory
    let c : Callback := .openConfirm ⟨"transfer", ""⟩
    let e : Escrow := ⟨"1", "dex-1", ⟨"umaany", ⟨100, by decide⟩⟩, "", 0, 0, .pending⟩
    let removed := erase (insert (insert Store.empty "é") "channel-10") "é"
    let written := insert (insert ((Ledger.Change.put e).after removed) "channel-1") "ö"
    let w : World Balances (List Callback) := ⟨⟨written, .empty "maany"⟩, [], []⟩
    let s := ((stack {} [.transfer d] (Ibc.recorder true) c).after w).vault.store
    let events := [] ++ [.inserted "é"] ++ [.inserted "channel-10"] ++ [.erased "é"] ++
      [.inserted "channel-1"] ++ [.inserted "ö"] ++ [Layer.transfer d].flatMap (Layer.events {} c)
    History events s ∧ toList s = .ok ["", "channel-1", "channel-10", "ö"] ∧
      (Standing events "" ∧ ¬ Standing events "é") ∧
      IsLeast {bound : Bytes | ∀ key, [0x61, 0xFF] <+: key → key < bound} [0x62] := by
  intro d c e removed written w s events
  have hremoved := ((History.empty.inserted "é").inserted "channel-10").erased "é"
  have hwritten := ((hremoved.changed (.put e) (by decide)).inserted "channel-1").inserted "ö"
  have h : History events s :=
    hwritten.calledBack (w := w) {} [.transfer d] (Ibc.spares_recorder _ true) c
  obtain ⟨⟨ids, hlist, -, hids, hstanding⟩, hends⟩ := members_listed h
  have hshown : toList s = .ok ["", "channel-1", "channel-10", "ö"] := by decide +kernel
  have hend : Store.Key.startEnd [0x61, 0xFF] = [0x62] := by decide
  obtain rfl := Except.ok.inj (hlist.symm.trans hshown)
  refine ⟨h, hshown, ⟨?_, ?_⟩, hend ▸ hends [0x61, 0xFF] (by decide)⟩
  · rw [← hstanding, ← hids]
    decide
  · rw [← hstanding, ← hids]
    decide

end ChannelSet

end Custody
