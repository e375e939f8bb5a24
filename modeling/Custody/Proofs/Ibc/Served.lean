import Custody.Proofs.Ibc.Forms
import Custody.Proofs.Ibc.Resolve
import Custody.Proofs.Text.Bytes

/-!
# Hosts that serve a registry

A host serves a registry if it answers the request for each entry with a form of it, and no other
request. It may put further fields into its answers and order the fields as it likes. Whoever looks
things up through such a host finds what the registry has.
-/

namespace Custody.Ibc

open Text (Addressable)
open Wire (Key Member Message Part writeDelimited writeParts writeTexts)

/-! ## Requests -/

/-- What a host can be asked for. -/
inductive Subject where
  | channel (e : Endpoint)
  | connection (id : String)
  | client (id : String)

namespace Subject

variable {q q' : Subject} {r : Request}

def path : Subject → String
  | .channel _ => "/ibc.core.channel.v1.Query/Channel"
  | .connection _ => "/ibc.core.connection.v1.Query/Connection"
  | .client _ => "/ibc.core.client.v1.Query/ClientState"

def texts : Subject → List (Nat × String)
  | .channel e => [(1, e.port), (2, e.channel)]
  | .connection id => [(1, id)]
  | .client id => [(1, id)]

/-- The request for the subject, its texts in their order. -/
def request (q : Subject) : Request where
  path := q.path
  data := writeTexts q.texts

/-- The request asks for the subject, in whatever form. -/
structure Asks (q : Subject) (r : Request) : Prop where
  path : r.path = q.path
  data : Message 100 (q.texts.map fun t => .text t.1 t.2) r.data

/-- The texts have lengths that a message can hold. -/
def Short (q : Subject) : Prop := ∀ t ∈ q.texts, (Bytes.ofString t.2).length < UInt64.size

theorem short_channel {e : Endpoint} (hport : (Bytes.ofString e.port).length < UInt64.size)
    (hchannel : (Bytes.ofString e.channel).length < UInt64.size) : (channel e).Short :=
  List.forall_mem_cons.2 ⟨hport, List.forall_mem_singleton.2 hchannel⟩

theorem short_connection {id : String} (h : (Bytes.ofString id).length < UInt64.size) :
    (connection id).Short := List.forall_mem_singleton.2 h

theorem short_client {id : String} (h : (Bytes.ofString id).length < UInt64.size) :
    (client id).Short := List.forall_mem_singleton.2 h

theorem asks_request (hshort : q.Short) : q.Asks q.request where
  path := rfl
  data := by
    apply Wire.message_writeTexts _ _ hshort
    · cases q <;> simp [texts]
    · cases q <;> simp [texts]

theorem Asks.channel_eq {e e' : Endpoint} (h : (channel e).Asks r) (h' : (channel e').Asks r) :
    e = e' := by
  have haccepts : ∀ {e : Endpoint}, (channel e).Asks r → Remote.ChannelRequest.layout.Accepts 100
      (fun m => m.port = e.port ∧ m.channel = e.channel) r.data := fun h =>
    Wire.Layout.accepts_texts rfl ⟨rfl, rfl⟩ (fun _ _ => ⟨rfl, rfl⟩) (fun _ _ => ⟨rfl, rfl⟩) h.data
  obtain ⟨m, hm, hm'⟩ := (haccepts h).common (haccepts h')
  exact congrArg₂ Endpoint.mk (hm.1.symm.trans hm'.1) (hm.2.symm.trans hm'.2)

theorem Asks.connection_eq {id id' : String} (h : (connection id).Asks r)
    (h' : (connection id').Asks r) : id = id' := by
  have haccepts : ∀ {id : String}, (connection id).Asks r →
      Remote.ConnectionRequest.layout.Accepts 100 (fun m => m.connection = id) r.data := fun h =>
    Wire.Layout.accepts_text rfl rfl (fun _ _ => rfl) h.data
  obtain ⟨m, hm, hm'⟩ := (haccepts h).common (haccepts h')
  exact hm.symm.trans hm'

theorem Asks.client_eq {id id' : String} (h : (client id).Asks r) (h' : (client id').Asks r) :
    id = id' := by
  have haccepts : ∀ {id : String}, (client id).Asks r →
      Remote.ClientRequest.layout.Accepts 100 (fun m => m.client = id) r.data := fun h =>
    Wire.Layout.accepts_text rfl rfl (fun _ _ => rfl) h.data
  obtain ⟨m, hm, hm'⟩ := (haccepts h).common (haccepts h')
  exact hm.symm.trans hm'

/-- A request asks for one subject at most: its path says of which kind, and its texts can be read
in one way only. -/
theorem Asks.unique (h : q.Asks r) (h' : q'.Asks r) : q = q' := by
  have hpath : q.path = q'.path := h.path.symm.trans h'.path
  cases q with
  | channel e =>
      cases q' with
      | channel e' => rw [h.channel_eq h']
      | connection id => simp [Subject.path] at hpath
      | client id => simp [Subject.path] at hpath
  | connection id =>
      cases q' with
      | channel e => simp [Subject.path] at hpath
      | connection id' => rw [h.connection_eq h']
      | client id' => simp [Subject.path] at hpath
  | client id =>
      cases q' with
      | channel e => simp [Subject.path] at hpath
      | connection id' => simp [Subject.path] at hpath
      | client id' => rw [h.client_eq h']

end Subject

/-! ## Hosts -/

/-- What a registry can have under a subject. -/
inductive Entry where
  | channel (c : ChannelEnd)
  | connection (c : ConnectionEnd)
  | client (s : ClientState)

def Entry.Form : Entry → Bytes → Prop
  | .channel c => c.Form
  | .connection c => c.Form
  | .client s => s.Form

def Registry.get? (r : Registry) : Subject → Option Entry
  | .channel e => (r.channels.get? e).map .channel
  | .connection id => (r.connections.get? id).map .connection
  | .client id => (r.clients.get? id).map .client

theorem Registry.isSome_get?_tendermint (e : Endpoint) (connection client chain : String)
    (q : Subject) :
    ((({} : Registry).addTendermintChannel e connection client chain).get? q).isSome ↔
      q = .channel e ∨ q = .connection connection ∨ q = .client client := by
  cases q <;> simp [get?, addTendermintChannel, addChannel, addConnection, addClient,
    Table.get?_insert]

/-- The host answers the request for each entry with a form of it, and every request that asks for
none, or for nothing at all, with an error. Whether it understands other forms of the requests for
its entries is left open. -/
structure Serves (host : Remote.Host) (r : Registry) : Prop where
  answered : ∀ q entry, r.get? q = some entry → ∃ b, host q.request = some b ∧
    Answer entry.Form b
  refused : ∀ request, (∀ q, q.Asks request → r.get? q = none) → host request = none

theorem Serves.refused_request {host : Remote.Host} {r : Registry} {q : Subject}
    (h : Serves host r) (hshort : q.Short) (hnone : r.get? q = none) :
    host q.request = none := by
  apply h.refused
  intro q' hasks
  rw [hasks.unique (Subject.asks_request hshort)]
  exact hnone

/-- What is read from the host's answers is what the registry has. -/
theorem Serves.read_eq {α : Type} {host : Remote.Host} {r : Registry} {q : Subject}
    {found : Option α} {entry : α → Entry} {read : Bytes → Option α} (h : Serves host r)
    (hshort : q.Short) (hentry : r.get? q = found.map entry)
    (hread : ∀ x b, Answer (entry x).Form b → read b = some x) : host q.request >>= read = found := by
  cases found with
  | none =>
      rw [h.refused_request hshort hentry]
      rfl
  | some x =>
      obtain ⟨b, hb, hform⟩ := h.answered q (entry x) hentry
      rw [hb]
      exact hread x b hform

/-! ## Hosts with their answers in a table -/

def Remote.Host.ofTable (table : List (Subject × Bytes)) : Remote.Host := fun request =>
  (table.find? fun row => row.1.request = request).map (·.2)

theorem serves_ofTable {table : List (Subject × Bytes)} {r : Registry}
    (hshort : ∀ row ∈ table, row.1.Short)
    (hforms : ∀ row ∈ table, ∃ entry, r.get? row.1 = some entry ∧ Answer entry.Form row.2)
    (hall : ∀ q, (r.get? q).isSome → ∃ row ∈ table, row.1 = q) :
    Serves (.ofTable table) r where
  answered q entry hentry := by
    obtain ⟨row, hrow, rfl⟩ := hall q (by rw [hentry]; rfl)
    have hfound : (table.find? fun other => other.1.request = row.1.request).isSome := by
      rw [List.find?_isSome]
      exact ⟨row, hrow, by simp⟩
    obtain ⟨other, hother⟩ := Option.isSome_iff_exists.1 hfound
    have hmem : other ∈ table := List.mem_of_find?_eq_some hother
    have hrequest : other.1.request = row.1.request := by simpa using List.find?_some hother
    have hsame : other.1 = row.1 := by
      apply (Subject.asks_request (hshort other hmem)).unique
      rw [hrequest]
      exact Subject.asks_request (hshort row hrow)
    obtain ⟨entry', hentry', hform⟩ := hforms other hmem
    rw [hsame, hentry, Option.some.injEq] at hentry'
    subst hentry'
    exact ⟨other.2, by rw [Remote.Host.ofTable, hother]; rfl, hform⟩
  refused request hnone := by
    have hmissing : table.find? (fun row => row.1.request = request) = none := by
      rw [List.find?_eq_none]
      intro row hrow hrequest
      obtain ⟨entry, hentry, -⟩ := hforms row hrow
      have hasks := Subject.asks_request (hshort row hrow)
      rw [of_decide_eq_true hrequest] at hasks
      rw [hnone row.1 hasks] at hentry
      cases hentry
    rw [Remote.Host.ofTable, hmissing]
    rfl

/-! ## Look-ups -/

namespace Remote

variable {host : Host} {r : Registry}

section Entries

variable {α β γ : Type}

/-- A look-up reads the answer, takes the record that it holds and converts it. -/
theorem value_ask (host : Host) (path : String) (request : Bytes) (response : Wire.Layout α)
    (get : α → Option β) (convert : β → Option γ) :
    (do let answer ← ask host path request response
        return do convert (← get (← answer)) : Lookup (Option γ)).value =
      host ⟨path, request⟩ >>= fun b => (response.read b).toOption >>= get >>= convert := by
  have hask : (ask host path request response).value =
      host ⟨path, request⟩ >>= fun b => (response.read b).toOption := rfl
  change ((ask host path request response).value >>= fun a => get a >>= convert) = _
  rw [hask]
  simp only [Option.bind_eq_bind, Option.bind_assoc]

theorem read_answer {response : Wire.Layout α} {inner : Wire.Layout β} {name : String}
    {get : α → Option β} {set : α → β → α} {Form : Bytes → Prop} {convert : β → Option γ} {x : γ}
    {b : Bytes} (hfields : response.fields = [Wire.Field.message 1 name inner get set])
    (hblank : get response.blank = none) (hget : ∀ a y, get (set a y) = some y)
    (hinner : ∀ b, Form b → inner.Accepts 99 (fun y => convert y = some x) b) (h : Answer Form b) :
    (response.read b).toOption >>= get >>= convert = some x := by
  obtain ⟨a, hread, y, hy, hconvert⟩ :=
    (Wire.Layout.accepts_message hfields hblank hget hinner h).read
  rw [hread]
  simp only [Except.toOption, Option.bind_eq_bind, Option.bind_some, hy, hconvert]

/-- A look-up finds what the registry has, if its record can be read from every form of an entry. -/
theorem value_served {q : Subject} {path : String} {request : Bytes} {found : Option γ}
    {entry : γ → Entry} {response : Wire.Layout α} {inner : Wire.Layout β} {name : String}
    {set : α → β → α} (h : Serves host r) (hshort : q.Short) (hrequest : q.request = ⟨path, request⟩)
    (get : α → Option β) (convert : β → Option γ) (hentry : r.get? q = found.map entry)
    (hfields : response.fields = [Wire.Field.message 1 name inner get set])
    (hblank : get response.blank = none) (hget : ∀ a y, get (set a y) = some y)
    (hinner : ∀ x b, (entry x).Form b → inner.Accepts 99 (fun y => convert y = some x) b) :
    (do let answer ← ask host path request response
        return do convert (← get (← answer)) : Lookup (Option γ)).value = found := by
  rw [value_ask, ← hrequest]
  apply h.read_eq hshort hentry
  intro x b hform
  exact read_answer hfields hblank hget (hinner x) hform

end Entries

theorem channel_served (h : Serves host r) {e : Endpoint} (hshort : (Subject.channel e).Short) :
    ((directory host).channel e).value = r.channels.get? e := by
  have hrequest : (Subject.channel e).request = ⟨channelPath,
      ChannelRequest.layout.write { port := e.port, channel := e.channel }⟩ := by
    simp only [Subject.request, Subject.texts, Wire.writeTexts_cons]
    rfl
  exact value_served h hshort hrequest ChannelResponse.channel channelOfRecord? rfl rfl rfl
    (fun _ _ => rfl) fun _ _ hb => accepts_channel hb

theorem connection_served (h : Serves host r) {id : String}
    (hshort : (Subject.connection id).Short) :
    ((directory host).connection id).value = r.connections.get? id := by
  have hrequest : (Subject.connection id).request = ⟨connectionPath,
      ConnectionRequest.layout.write { connection := id }⟩ := by
    simp only [Subject.request, Subject.texts, Wire.writeTexts_cons]
    rfl
  exact value_served h hshort hrequest ConnectionResponse.connection
    (fun record => some (connectionOfRecord record)) rfl rfl rfl (fun _ _ => rfl)
    fun _ _ hb => (accepts_connection hb).imp fun _ => congrArg some

theorem client_served (h : Serves host r) {id : String} (hshort : (Subject.client id).Short) :
    ((directory host).client id).value = r.clients.get? id := by
  have hrequest : (Subject.client id).request = ⟨clientPath,
      ClientRequest.layout.write { client := id }⟩ := by
    simp only [Subject.request, Subject.texts, Wire.writeTexts_cons]
    rfl
  exact value_served h hshort hrequest ClientResponse.client
    (fun record => (clientOfRecord record).toOption) rfl rfl rfl (fun _ _ => rfl)
    fun _ _ hb => (accepts_client hb).imp fun _ => congrArg Except.toOption

end Remote

/-! ## Resolving a channel -/

section Lengths

/-- What an answer to a request holds has a form. -/
theorem exists_form {Form : Bytes → Prop} {b : Bytes} (h : Answer Form b) : ∃ b, Form b := by
  obtain ⟨contents, hfits⟩ := h.fits List.mem_cons_self
  rcases hfits with ⟨-, habsent⟩ | ⟨c, -, b, hb, -⟩
  · exact habsent.elim
  · exact ⟨b, hb⟩

/-- The connections of a channel that was sent can be asked for. -/
theorem ChannelEnd.Form.short {c : ChannelEnd} {b : Bytes} (h : c.Form b) {hop : String}
    (hhop : hop ∈ c.hops) : (Subject.connection hop).Short := by
  obtain ⟨contents, hfits⟩ := Message.fits h (m := .texts 4 c.hops) (by simp)
  exact Subject.short_connection (Member.short_of_texts hfits hhop)

/-- The client that the counterparty names in a connection that was sent can be asked for. -/
theorem ConnectionEnd.Form.short {c : ConnectionEnd} {b : Bytes} (h : c.Form b) :
    (Subject.client c.counterparty.client).Short := by
  apply Subject.short_client
  obtain ⟨contents, hfits⟩ := Message.fits h
    (m := .message 4 (c.counterparty = ⟨"", ""⟩) c.counterparty.Form) (by simp)
  rcases hfits with ⟨-, habsent⟩ | ⟨content, -, b, hb, -⟩
  · rw [habsent]
    decide
  · obtain ⟨contents, hclient⟩ := Message.fits hb (m := .text 1 c.counterparty.client) (by simp)
    exact Member.short_of_text hclient

theorem Serves.exists_form {host : Remote.Host} {r : Registry} {q : Subject} {entry : Entry}
    (h : Serves host r) (hentry : r.get? q = some entry) : ∃ b, entry.Form b := by
  obtain ⟨b, -, hform⟩ := h.answered q entry hentry
  exact Ibc.exists_form hform

end Lengths

namespace Remote

variable {host : Host} {r : Registry}

theorem resolve_served (h : Serves host r) {e : Endpoint} (hshort : (Subject.channel e).Short) :
    ((directory host).resolve e).run.value = (r.directory.resolve e).run.value := by
  apply Directory.value_resolve_congr (channel_served h hshort)
  · intro channel hchannel hop hhop
    have hchannel : r.channels.get? e = some channel := hchannel
    have hentry : r.get? (.channel e) = some (.channel channel) := by
      rw [Registry.get?, hchannel]
      rfl
    obtain ⟨b, hform⟩ := h.exists_form hentry
    exact connection_served h (ChannelEnd.Form.short hform hhop)
  · intro hop connection hconnection
    have hconnection : r.connections.get? hop = some connection := hconnection
    have hentry : r.get? (.connection hop) = some (.connection connection) := by
      rw [Registry.get?, hconnection]
      rfl
    obtain ⟨b, hform⟩ := h.exists_form hentry
    exact client_served h (ConnectionEnd.Form.short hform)

end Remote

/-- Through a host that serves a registry the look-ups find the registry's entries, and nothing where
it has none; channels resolve as they do in the registry, or fail at the same place. -/
theorem directory_of_served {host : Remote.Host} {r : Registry} (h : Serves host r) :
    (∀ e : Endpoint, Addressable e.port → Addressable e.channel →
      ((Remote.directory host).channel e).value = r.channels.get? e ∧
      ((Remote.directory host).resolve e).run.value = (r.directory.resolve e).run.value ∧
      ((Remote.directory host).chainOf e).run.value = (r.directory.chainOf e).run.value) ∧
    ∀ id, Addressable id →
      ((Remote.directory host).connection id).value = r.connections.get? id ∧
      ((Remote.directory host).client id).value = r.clients.get? id := by
  constructor
  · intro e hport hchannel
    have hshort : (Subject.channel e).Short := Subject.short_channel
      (Bytes.length_ofString_lt hport) (Bytes.length_ofString_lt hchannel)
    have hresolve := Remote.resolve_served h hshort
    refine ⟨Remote.channel_served h hshort, hresolve, ?_⟩
    rw [Directory.value_chainOf, Directory.value_chainOf, hresolve]
  · intro id hid
    have hlength := Bytes.length_ofString_lt hid
    exact ⟨Remote.connection_served h (Subject.short_connection hlength),
      Remote.client_served h (Subject.short_client hlength)⟩

/-! ## A host with fields of its own -/

namespace Annotated

/-- A group that no record declares, with a number in it. -/
def group : Part where
  key := ⟨9, .groupStart⟩
  content := writeParts [⟨⟨3, .varint⟩, [5]⟩] ++ Key.write ⟨9, .groupEnd⟩

theorem wellFormed_group (depth : Nat) : group.WellFormed (depth + 2) := by
  refine ⟨[⟨⟨3, .varint⟩, [5]⟩], _, _, ?_, Wire.sequence_write (by decide),
    Key.form_write (by decide) (by decide), rfl⟩
  rw [List.forall_mem_singleton]
  exact ⟨5, Wire.Varint.form_singleton (by decide)⟩

def message (tag : Nat) (b : Bytes) : Part := ⟨⟨tag, .delimited⟩, writeDelimited b⟩

theorem wellFormed_message {b : Bytes} (hb : b.length < UInt64.size) (tag depth : Nat) :
    (message tag b).WellFormed (depth + 1) :=
  ⟨b, Wire.delimited_write hb⟩

def registry : Registry := ({} : Registry).addTendermintChannel ⟨"transfer", "channel-0"⟩
  "connection-0" "07-tendermint-0" "osmosis-1"

/-- The state takes two bytes, and the version is left out. -/
def channel : Bytes := writeParts [
  group,
  .text 4 "connection-0",
  ⟨⟨1, .varint⟩, [0x83, 0x00]⟩,
  ⟨⟨2, .varint⟩, [1]⟩,
  message 3 (writeTexts [(1, "transfer"), (2, "channel-0")])]

theorem form_channel : (ChannelEnd.mk .opened .unordered ⟨"transfer", "channel-0"⟩
    ["connection-0"] "").Form channel := by
  have hstate : Wire.Varint.Form 3 [0x83, 0x00] :=
    ⟨.more (x := 0x83) (by decide) (.last (x := 0) (by decide)), by decide, by decide⟩
  have hcounterparty : (Endpoint.mk "transfer" "channel-0").Form
      (writeTexts [(1, "transfer"), (2, "channel-0")]) :=
    Wire.message_writeTexts (by decide) (by decide) (by decide) 98
  apply Wire.message_writeParts (by decide)
  · simp only [List.forall_mem_cons]
    exact ⟨⟨[_], rfl, .inr ⟨_, rfl, 3, rfl, hstate⟩⟩,
      ⟨[_], rfl, .inr ⟨_, rfl, 1, rfl, Wire.Varint.form_singleton (by decide)⟩⟩,
      ⟨[_], rfl, .inr ⟨_, rfl, _, hcounterparty, Wire.delimited_write (by decide +kernel)⟩⟩,
      ⟨[_], rfl, .cons (Wire.delimited_write (by decide)) .nil⟩,
      ⟨[], rfl, .inl ⟨rfl, rfl⟩⟩, List.forall_mem_nil _⟩
  · simp only [List.forall_mem_cons]
    exact ⟨.inr (wellFormed_group 97), .inl (by decide), .inl (by decide), .inl (by decide),
      .inl (by decide), List.forall_mem_nil _⟩

def connection : Bytes := writeParts [
  .text 1 "07-tendermint-0",
  message 2 [1, 2, 3],
  ⟨⟨3, .varint⟩, [3]⟩,
  message 4 (writeTexts [(1, "07-tendermint-0"), (2, "connection-0")])]

theorem form_connection : (ConnectionEnd.mk "07-tendermint-0"
    ⟨"07-tendermint-0", "connection-0"⟩).Form connection := by
  have hcounterparty : (ConnectionCounterparty.mk "07-tendermint-0" "connection-0").Form
      (writeTexts [(1, "07-tendermint-0"), (2, "connection-0")]) :=
    Wire.message_writeTexts (by decide) (by decide) (by decide) 98
  apply Wire.message_writeParts (by decide)
  · simp only [List.forall_mem_cons]
    exact ⟨⟨[_], rfl, .inr ⟨_, rfl, Wire.delimited_write (by decide)⟩⟩,
      ⟨[_], rfl, .inr ⟨_, rfl, 3, trivial, Wire.Varint.form_singleton (by decide)⟩⟩,
      ⟨[_], rfl, .inr ⟨_, rfl, _, hcounterparty, Wire.delimited_write (by decide +kernel)⟩⟩,
      ⟨[], rfl, .inl ⟨rfl, trivial⟩⟩, List.forall_mem_nil _⟩
  · simp only [List.forall_mem_cons]
    exact ⟨.inl (by decide), .inr (wellFormed_message (by decide) 2 98), .inl (by decide),
      .inl (by decide), List.forall_mem_nil _⟩

def height : Bytes := writeParts [⟨⟨2, .varint⟩, [1]⟩]

theorem form_height : HeightForm 1 height := by
  apply Wire.message_writeParts (by decide)
  · simp only [List.forall_mem_cons]
    exact ⟨⟨[], rfl, .inl ⟨rfl, trivial⟩⟩,
      ⟨[_], rfl, .inr ⟨_, rfl, 1, rfl, Wire.Varint.form_singleton (by decide)⟩⟩,
      List.forall_mem_nil _⟩
  · rw [List.forall_mem_singleton]
    exact .inl (by decide)

def client : Bytes := writeParts [message 7 height, message 2 [], .text 1 "osmosis-1"]

theorem form_client : (ClientState.tendermint ⟨"osmosis-1", 1⟩).ValueForm client := by
  apply Wire.message_writeParts (by decide)
  · simp only [List.forall_mem_cons]
    exact ⟨⟨[_], rfl, .inr ⟨_, rfl, Wire.delimited_write (by decide)⟩⟩,
      ⟨[_], rfl, .inr ⟨_, rfl, _, form_height, Wire.delimited_write (by decide +kernel)⟩⟩,
      List.forall_mem_nil _⟩
  · simp only [List.forall_mem_cons]
    exact ⟨.inl (by decide), .inr (wellFormed_message (by decide) 2 99), .inl (by decide),
      List.forall_mem_nil _⟩

def any : Bytes := writeParts [
  message 2 client,
  group,
  .text 1 "/ibc.lightclients.tendermint.v1.ClientState"]

theorem form_any : (ClientState.tendermint ⟨"osmosis-1", 1⟩).Form any := by
  apply Wire.message_writeParts (by decide)
  · simp only [List.forall_mem_cons]
    exact ⟨⟨[_], rfl, .inr ⟨_, rfl, Wire.delimited_write (by decide)⟩⟩,
      ⟨[_], rfl, .inr ⟨_, rfl, _, form_client, Wire.delimited_write (by decide +kernel)⟩⟩,
      List.forall_mem_nil _⟩
  · simp only [List.forall_mem_cons]
    exact ⟨.inl (by decide), .inr (wellFormed_group 97), .inl (by decide), List.forall_mem_nil _⟩

/-- An answer with a proof before what is asked for and a height behind it. -/
def answer (b : Bytes) : Bytes := writeParts [message 2 [1, 2, 3], message 1 b, message 3 height]

theorem answer_answer {Form : Bytes → Prop} {b : Bytes} (h : Form b)
    (hb : b.length < UInt64.size) : Answer Form (answer b) := by
  apply Wire.message_writeParts (by simp [message])
  · rw [List.forall_mem_singleton]
    exact ⟨[_], rfl, .inr ⟨_, rfl, b, h, Wire.delimited_write hb⟩⟩
  · simp only [List.forall_mem_cons]
    exact ⟨.inr (wellFormed_message (by decide) 2 99), .inl List.mem_cons_self,
      .inr (wellFormed_message (by decide +kernel) 3 99), List.forall_mem_nil _⟩

def host : Remote.Host := .ofTable [
  (.channel ⟨"transfer", "channel-0"⟩, answer channel),
  (.connection "connection-0", answer connection),
  (.client "07-tendermint-0", answer any)]

theorem serves : Serves host registry := by
  apply serves_ofTable
  · simp only [List.forall_mem_cons]
    exact ⟨Subject.short_channel (by decide) (by decide), Subject.short_connection (by decide),
      Subject.short_client (by decide), List.forall_mem_nil _⟩
  · simp only [List.forall_mem_cons]
    exact ⟨⟨_, rfl, answer_answer form_channel (by decide +kernel)⟩,
      ⟨_, rfl, answer_answer form_connection (by decide +kernel)⟩,
      ⟨_, rfl, answer_answer form_any (by decide +kernel)⟩, List.forall_mem_nil _⟩
  · intro q hq
    rcases (Registry.isSome_get?_tendermint _ _ _ _ q).1 hq with rfl | rfl | rfl
    · exact ⟨_, .head _, rfl⟩
    · exact ⟨_, .tail _ (.head _), rfl⟩
    · exact ⟨_, .tail _ (.tail _ (.head _)), rfl⟩

end Annotated

theorem directory_of_served_annotated :
    Serves Annotated.host Annotated.registry ∧
      ((Remote.directory Annotated.host).resolve ⟨"transfer", "channel-0"⟩).run.value =
        .ok ⟨"osmosis-1", "connection-0", "transfer"⟩ := by
  refine ⟨Annotated.serves, ?_⟩
  have hagree := (directory_of_served Annotated.serves).1 ⟨"transfer", "channel-0"⟩ (by decide)
    (by decide)
  rw [hagree.2.1]
  decide

end Custody.Ibc
