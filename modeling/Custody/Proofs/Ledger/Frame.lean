import Mathlib.Control.Monad.Basic
import Custody.Ledger.AccountRegistry
import Custody.Ledger.ChannelSet
import Custody.Ledger.Settings
import Custody.Proofs.Ledger.Sound
import Custody.Proofs.Store.Family

/-!
# What changes leave alone

A change touches the keys of its own families, and what is read depends on the keys of some families
only. So no change shows in what is read of other families, scans included: the range of a scan
holds the keys of its family and no others.
-/

namespace Custody.Ledger

open Store (AgreeOn)
open Store.Key (Family Name)

/-- The key is of one of the families. -/
def OfFamilies (families : List Family) (key : Bytes) : Prop := ∃ f ∈ families, f.Holds key

theorem ofFamilies_key {families : List Family} {x : Name} (hx : x.family ∈ families) :
    OfFamilies families x.key := ⟨x.family, hx, x.holds_key⟩

/-! ## Changes -/

/-- A write to the store, by itself or as one of the operations does it. -/
inductive Change where
  | set (x : Name) (value : Bytes)
  | erase (x : Name)
  | nextId
  | put (e : Escrow)
  | deposit (id : String) (owner : Address)
  | allow (channel : String)
  | disallow (channel : String)
  | authorize (chain : String) (account : Address)
  | setUp (cfg : Config)

namespace Change

/-- The store after the change, whether or not it failed. -/
def after : Change → Store → Store
  | set x value, s => s.insert x.key value
  | erase x, s => s.erase x.key
  | nextId, s => Ledger.nextId.after s
  | put e, s => (Ledger.put e).after s
  | deposit id owner, s => Depositors.insert s id owner
  | allow channel, s => ChannelSet.insert s channel
  | disallow channel, s => ChannelSet.erase s channel
  | authorize chain account, s => (AccountRegistry.set chain account).after s
  | setUp cfg, s => Settings.save s cfg

/-- The families that the change is made to. -/
def families : Change → List Family
  | set x _ | erase x => [x.family]
  | nextId => [.counter]
  | put _ => [.record, .route]
  | deposit _ _ => [.depositor]
  | allow _ | disallow _ => [.channel]
  | authorize _ _ => [.account]
  | setUp _ => [.version, .config]

end Change

/-- The stores agree but for the families. -/
abbrev SameBut (families : List Family) (s t : Store) : Prop :=
  AgreeOn (fun key => ¬ OfFamilies families key) s t

section Writes

variable {families : List Family} {x : Name}

theorem sameBut_insert (hx : x.family ∈ families) (s : Store) (value : Bytes) :
    SameBut families (s.insert x.key value) s :=
  AgreeOn.insert (not_not_intro (ofFamilies_key hx)) s value

theorem sameBut_erase (hx : x.family ∈ families) (s : Store) :
    SameBut families (s.erase x.key) s :=
  AgreeOn.erase (not_not_intro (ofFamilies_key hx)) s

theorem sameBut_save (hx : x.family ∈ families) (s : Store) (value : Bytes) :
    SameBut families ((Store.save x.key value).after s) s := by
  unfold Store.save
  split
  · exact .refl s
  · exact sameBut_insert hx s value

theorem sameBut_nextId (s : Store) : SameBut [.counter] (nextId.after s) s := by
  rcases nextId_cases s with ⟨n, hlast, hn⟩ | ⟨e, hrun⟩
  · rw [Operation.after_ok (nextId_run hlast hn)]
    exact sameBut_insert (x := .counter) List.mem_cons_self s _
  · rw [Operation.after_error hrun]
    exact .refl s

theorem sameBut_put (e : Escrow) (s : Store) : SameBut [.record, .route] ((put e).after s) s := by
  have hrecord : SameBut [.record, .route] (s.insert (Store.Key.escrow e.id) e.encode) s :=
    sameBut_insert (x := .record e.id) List.mem_cons_self s _
  have hindex : SameBut [.record, .route] ((put e).after s)
      (s.insert (Store.Key.escrow e.id) e.encode) :=
    sameBut_save (x := .route e.chain e.amount.denom) (List.mem_cons_of_mem _ List.mem_cons_self)
      _ (Bytes.ofString e.id)
  exact hindex.trans hrecord

theorem sameBut_setUp (cfg : Config) (s : Store) :
    SameBut [.version, .config] (Settings.save s cfg) s := by
  have hversion : SameBut [.version, .config]
      (s.insert Store.Key.version (Json.encode Settings.currentVersion)) s :=
    sameBut_insert (x := .version) List.mem_cons_self s _
  have hconfig : SameBut [.version, .config] (Settings.save s cfg)
      (s.insert Store.Key.version (Json.encode Settings.currentVersion)) :=
    sameBut_insert (x := .config) (List.mem_cons_of_mem _ List.mem_cons_self) _ _
  exact hconfig.trans hversion

/-- A change is made to its own families only. -/
theorem Change.sameBut (c : Change) (s : Store) : SameBut c.families (c.after s) s := by
  cases c with
  | set x value => exact sameBut_insert List.mem_cons_self s value
  | erase x => exact sameBut_erase List.mem_cons_self s
  | nextId => exact sameBut_nextId s
  | put e => exact sameBut_put e s
  | deposit id owner => exact sameBut_insert (x := .depositor id) List.mem_cons_self s _
  | allow channel => exact sameBut_insert (x := .channel channel) List.mem_cons_self s _
  | disallow channel => exact sameBut_erase (x := .channel channel) List.mem_cons_self s
  | authorize chain account => exact sameBut_save (x := .account chain) List.mem_cons_self s _
  | setUp cfg => exact sameBut_setUp cfg s

end Writes

/-! ## Reads -/

/-- Something read of the store. -/
inductive Read where
  | entry (x : Name)
  | nextId
  | raw (id : String)
  | byId (id : String)
  | byRoute (chain denom : String)
  | records (start : Option String)
  | first (keep : Escrow → Bool) (count : Nat) (start : Option String)
  | depositor (id : String)
  | contains (channel : String)
  | channels
  | account (chain : String)
  | config

namespace Read

/-- What comes of it. -/
def Answer : Read → Type
  | entry _ | raw _ => Option Bytes
  | nextId => Except Error String
  | byId _ | byRoute _ _ => Except Error (Option Escrow)
  | records _ => List Bytes
  | first _ _ _ => Except Error (List Escrow)
  | depositor _ | account _ => Except Error (Option Address)
  | contains _ => Bool
  | channels => Except Error (List String)
  | config => Except Error Config

def answer (s : Store) : (r : Read) → r.Answer
  | entry x => s.get x.key
  | nextId => Ledger.nextId.result s
  | raw id => Ledger.raw s id
  | byId id => Ledger.byId s id
  | byRoute chain denom => Ledger.byRoute s chain denom
  | records start => Ledger.records s start
  | first keep count start => Ledger.first keep count (Ledger.records s start)
  | depositor id => Depositors.find? s id
  | contains channel => ChannelSet.contains s channel
  | channels => ChannelSet.toList s
  | account chain => AccountRegistry.find? s chain
  | config => Settings.load s

/-- The families that it depends on. A look-up by route goes on to a record. -/
def families : Read → List Family
  | entry x => [x.family]
  | nextId => [.counter]
  | raw _ | byId _ | records _ | first _ _ _ => [.record]
  | byRoute _ _ => [.route, .record]
  | depositor _ => [.depositor]
  | contains _ | channels => [.channel]
  | account _ => [.account]
  | config => [.config]

end Read

section Scans

/-- The part of the store that belongs to a family, in the order of its keys. -/
def ofFamily (f : Family) (s : Store) : List (Bytes × Bytes) :=
  s.entries.filter fun e => f.Holds e.1

theorem mem_range_start_iff {f : Family} (hmany : f.single = false)
    (hbounded : Store.Key.Bounded f.start) {key : Bytes} :
    ¬ key < f.start ∧ key < Store.Key.startEnd f.start ↔ f.Holds key := by
  rw [Store.Key.mem_startEnd_iff hbounded, Store.Key.Family.holds_iff_start hmany]

theorem range_start {f : Family} (hmany : f.single = false)
    (hbounded : Store.Key.Bounded f.start) (s : Store) :
    s.range f.start (Store.Key.startEnd f.start) = ofFamily f s := by
  unfold Store.range ofFamily
  congr 1
  funext e
  exact decide_eq_decide.2 (mem_range_start_iff hmany hbounded)

theorem mem_records_after_iff (id : String) {key : Bytes} :
    ¬ key < Store.Key.escrow id ++ [0x00] ∧ key < Store.Key.escrowEnd ↔
      Store.Key.escrow id < key ∧ Family.record.Holds key := by
  have hfirst := (mem_range_start_iff (f := .record) rfl (by decide)).2 (Name.record id).holds_key
  rw [Store.Key.not_lt_append_zero_iff]
  constructor
  · rintro ⟨hafter, hend⟩
    -- The given record is not below the family itself, so what comes after it is not either.
    have hlow : ¬ key < Family.record.start := fun h => hfirst.1 (List.lt_trans hafter h)
    exact ⟨hafter, (mem_range_start_iff rfl (by decide)).1 ⟨hlow, hend⟩⟩
  · rintro ⟨hafter, hrecord⟩
    exact ⟨hafter, ((mem_range_start_iff rfl (by decide)).2 hrecord).2⟩

/-- A scan of the records covers those after the given one, and nothing else. -/
theorem records_eq_ofFamily (s : Store) (start : Option String) :
    records s start =
      ((ofFamily .record s).filter fun e => ∀ id ∈ start, Store.Key.escrow id < e.1).map (·.2) := by
  cases start with
  | none =>
      have hall : (ofFamily .record s).filter (fun e => ∀ id ∈ none, Store.Key.escrow id < e.1) =
          ofFamily .record s := by
        simp
      rw [hall, ← range_start rfl (by decide)]
      rfl
  | some id =>
      have hrange : s.range (Store.Key.escrow id ++ [0x00]) Store.Key.escrowEnd =
          (ofFamily .record s).filter fun e => ∀ x ∈ some id, Store.Key.escrow x < e.1 := by
        unfold Store.range ofFamily
        rw [List.filter_filter]
        congr 1
        funext e
        rw [← Bool.decide_and]
        apply decide_eq_decide.2
        simpa using mem_records_after_iff id
      rw [← hrange]
      rfl

theorem channels_eq_ofFamily (s : Store) :
    ChannelSet.toList s = (ofFamily .channel s).mapM fun e =>
      (Text.Utf8.decode (e.1.drop Store.Key.channelStart.length)).mapError .notUtf8 := by
  rw [← range_start rfl (by decide +kernel)]
  rfl

theorem ofFamily_congr {f : Family} {s t : Store} (h : AgreeOn f.Holds s t) :
    ofFamily f s = ofFamily f t := by
  change (s.restrict fun key => f.Holds key).entries = (t.restrict fun key => f.Holds key).entries
  congr 1
  apply Store.ext
  intro key
  rw [Store.get_restrict, Store.get_restrict]
  split
  · rename_i hkey
    exact h key (of_decide_eq_true hkey)
  · rfl

end Scans

section Congruence

variable {s t : Store}

theorem result_nextId (s : Store) :
    nextId.result s = (lastId s).bind fun n =>
      if n + 1 < UInt64.size then .ok (toString (n + 1))
      else .error (.internal .counterOverflow) := by
  unfold nextId Operation.result
  cases hlast : lastId s with
  | error e =>
      rw [Operation.bind_error (Operation.reading_error hlast)]
      rfl
  | ok n =>
      rw [Operation.bind_ok (Operation.reading_ok hlast)]
      simp only [Except.bind]
      by_cases hn : n + 1 < UInt64.size
      · rw [if_pos hn, if_pos hn]
        rfl
      · rw [if_neg hn, if_neg hn]
        rfl

theorem nextId_congr (h : s.get Store.Key.counter = t.get Store.Key.counter) :
    nextId.result s = nextId.result t := by
  rw [result_nextId, result_nextId, lastId, lastId, h]

theorem byId_congr {id : String}
    (h : s.get (Store.Key.escrow id) = t.get (Store.Key.escrow id)) : byId s id = byId t id := by
  rw [byId, byId, raw, raw, h]

theorem byRoute_congr {chain denom : String}
    (hindex : s.get (Store.Key.route chain denom) = t.get (Store.Key.route chain denom))
    (hrecords : ∀ id, s.get (Store.Key.escrow id) = t.get (Store.Key.escrow id)) :
    byRoute s chain denom = byRoute t chain denom := by
  have hfound : ∀ id, byId s id = byId t id := fun id => byId_congr (hrecords id)
  simp only [byRoute, hindex, hfound]

theorem records_congr (h : AgreeOn Family.record.Holds s t) (start : Option String) :
    records s start = records t start := by
  rw [records_eq_ofFamily, records_eq_ofFamily, ofFamily_congr h]

theorem channels_congr (h : AgreeOn Family.channel.Holds s t) :
    ChannelSet.toList s = ChannelSet.toList t := by
  rw [channels_eq_ofFamily, channels_eq_ofFamily, ofFamily_congr h]

theorem contains_congr {channel : String}
    (h : s.get (Store.Key.channel channel) = t.get (Store.Key.channel channel)) :
    ChannelSet.contains s channel = ChannelSet.contains t channel := by
  rw [ChannelSet.contains, ChannelSet.contains, h]

theorem account_congr {chain : String}
    (h : s.get (Store.Key.account chain) = t.get (Store.Key.account chain)) :
    AccountRegistry.find? s chain = AccountRegistry.find? t chain := by
  rw [AccountRegistry.find?, AccountRegistry.find?, h]

theorem config_congr (h : s.get Store.Key.config = t.get Store.Key.config) :
    Settings.load s = Settings.load t := by
  rw [Settings.load, Settings.load, h]

/-- What is read depends on its families only. -/
theorem Read.answer_congr (r : Read) (h : AgreeOn (OfFamilies r.families) s t) :
    r.answer s = r.answer t := by
  have hget : ∀ x : Name, x.family ∈ r.families → s.get x.key = t.get x.key :=
    fun x hx => h x.key (ofFamilies_key hx)
  have hfamily : ∀ f ∈ r.families, AgreeOn f.Holds s t :=
    fun f hf key hkey => h key ⟨f, hf, hkey⟩
  cases r with
  | entry x => exact hget x List.mem_cons_self
  | nextId => exact nextId_congr (hget .counter List.mem_cons_self)
  | raw id => exact hget (.record id) List.mem_cons_self
  | byId id => exact byId_congr (hget (.record id) List.mem_cons_self)
  | byRoute chain denom =>
      -- Any record may be the one that the index leads to.
      apply byRoute_congr
      · exact hget (.route chain denom) List.mem_cons_self
      · intro id
        exact hget (.record id) (List.mem_cons_of_mem _ List.mem_cons_self)
  | records start => exact records_congr (hfamily .record List.mem_cons_self) start
  | first keep count start =>
      exact congrArg (Ledger.first keep count)
        (records_congr (hfamily .record List.mem_cons_self) start)
  | depositor id => exact Depositors.find_congr (hget (.depositor id) List.mem_cons_self)
  | contains channel => exact contains_congr (hget (.channel channel) List.mem_cons_self)
  | channels => exact channels_congr (hfamily .channel List.mem_cons_self)
  | account chain => exact account_congr (hget (.account chain) List.mem_cons_self)
  | config => exact config_congr (hget .config List.mem_cons_self)

end Congruence

/-! ## Changes to other families -/

/-- The store after all changes. -/
def changed (changes : List Change) (s : Store) : Store := changes.foldl (fun s c => c.after s) s

theorem not_ofFamilies {families others : List Family} (h : ∀ f ∈ families, f ∉ others)
    {key : Bytes} (hkey : OfFamilies others key) : ¬ OfFamilies families key := by
  rintro ⟨f, hf, hholds⟩
  obtain ⟨g, hg, hholds'⟩ := hkey
  obtain rfl := hholds.unique hholds'
  exact h f hf hg

theorem Read.answer_after (r : Read) {c : Change} (h : ∀ f ∈ c.families, f ∉ r.families)
    (s : Store) : r.answer (c.after s) = r.answer s := by
  apply r.answer_congr
  intro key hkey
  exact c.sameBut s key (not_ofFamilies h hkey)

theorem Read.answer_changed (r : Read) {changes : List Change}
    (h : ∀ c ∈ changes, ∀ f ∈ c.families, f ∉ r.families) (s : Store) :
    r.answer (changed changes s) = r.answer s := by
  induction changes generalizing s with
  | nil => rfl
  | cons c changes ih =>
      have hrest := ih (fun x hx => h x (List.mem_cons_of_mem c hx)) (c.after s)
      exact hrest.trans (r.answer_after (h c List.mem_cons_self) s)

/-- Whatever the store holds: no key is of two families, a change is made to its own families only
and does not show in what is read of others, and a scan covers its family, from the given record on,
and nothing else. -/
theorem families_apart (s : Store) :
    (∀ x y : Name, x.key = y.key → x.family = y.family) ∧
    (∀ (f : Family) (x : Name), f.Holds x.key ↔ x.family = f) ∧
    (∀ (c : Change) (key : Bytes), (∀ f ∈ c.families, ¬ f.Holds key) →
      (c.after s).get key = s.get key) ∧
    (∀ (r : Read) (changes : List Change), (∀ c ∈ changes, ∀ f ∈ c.families, f ∉ r.families) →
      r.answer (changed changes s) = r.answer s) ∧
    (∀ start, records s start =
      ((ofFamily .record s).filter fun e => ∀ id ∈ start, Store.Key.escrow id < e.1).map (·.2)) ∧
    ChannelSet.toList s = (ofFamily .channel s).mapM fun e =>
      (Text.Utf8.decode (e.1.drop Store.Key.channelStart.length)).mapError .notUtf8 := by
  refine ⟨?_, ?_, ?_, ?_, records_eq_ofFamily s, channels_eq_ofFamily s⟩
  · intro x y hkey
    exact x.holds_key.unique (hkey ▸ y.holds_key)
  · intro f x
    exact x.holds_iff
  · intro c key hother
    apply c.sameBut s key
    rintro ⟨f, hf, hholds⟩
    exact hother f hf hholds
  · intro r changes hothers
    exact r.answer_changed hothers s

/-- Channels are listed as before once all other families have been written to, and records are
looked up as before once channels have been allowed and dismissed. -/
theorem families_apart_channels_and_records :
    let alice := "maany190vqdjtlpcq27xslcveglfmr4ynfwg7g9637yr"
    let e : Escrow := ⟨"1", "dex-1", ⟨"umaany", ⟨100, by decide⟩⟩, "", 0, 0, .pending⟩
    let s := changed [.put e, .allow "channel-0", .allow ""] .empty
    let others : List Change := [.setUp {}, .nextId, .put e, .put { e with id := "" },
      .deposit "1" alice, .authorize "dex-1" alice]
    let channels : List Change := [.allow "channel-1", .disallow "channel-0"]
    (ChannelSet.toList s = .ok ["", "channel-0"] ∧
        ChannelSet.toList (changed others s) = ChannelSet.toList s) ∧
      byRoute s "dex-1" "umaany" = .ok (some e) ∧
        byRoute (changed channels s) "dex-1" "umaany" = byRoute s "dex-1" "umaany" := by
  intro alice e s others channels
  have hlisted := (families_apart s).2.2.2.1 .channels others (by decide +kernel)
  have hfound := (families_apart s).2.2.2.1 (.byRoute "dex-1" "umaany") channels (by decide +kernel)
  refine ⟨⟨?_, hlisted⟩, ?_, hfound⟩
  · decide +kernel
  · decide +kernel

end Custody.Ledger
