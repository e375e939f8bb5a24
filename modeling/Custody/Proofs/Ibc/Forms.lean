import Custody.Ibc.Remote
import Custody.Proofs.Wire.Records

/-!
# Forms of channels, connections and clients

What counts as an encoding of each, with the tags and numbers of the host's services, and that the
records that are read agree with it. Proofs, versions, key prefixes, trust levels and whatever else a
host sends are fields that the records do not declare. An answer has 100 levels for messages and
groups inside one another, and each message inside it one less than the one around it.
-/

namespace Custody.Ibc

open Wire (Message Slot)

/-! ## Encodings -/

def ChannelState.number : ChannelState → Nat
  | .init => 1
  | .tryOpen => 2
  | .opened => 3
  | .closed => 4

def Order.number : Order → Nat
  | .unordered => 1
  | .ordered => 2

/-- The counterparty of a channel, two levels inside an answer. -/
def Endpoint.Form (e : Endpoint) : Bytes → Prop := Message 98 [.text 1 e.port, .text 2 e.channel]

def ChannelEnd.Form (c : ChannelEnd) : Bytes → Prop :=
  Message 99 [
    .number 1 (· = c.state.number),
    .number 2 (· = c.order.number),
    .message 3 (c.counterparty = ⟨"", ""⟩) c.counterparty.Form,
    .texts 4 c.hops,
    .text 5 c.version]

def ConnectionCounterparty.Form (c : ConnectionCounterparty) : Bytes → Prop :=
  Message 98 [.text 1 c.client, .text 2 c.connection]

/-- The state and the delay of a connection may be anything. -/
def ConnectionEnd.Form (c : ConnectionEnd) : Bytes → Prop :=
  Message 99 [
    .text 1 c.client,
    .number 3 fun _ => True,
    .message 4 (c.counterparty = ⟨"", ""⟩) c.counterparty.Form,
    .number 5 fun _ => True]

/-- A height, of any revision. -/
def HeightForm (height : UInt64) : Bytes → Prop :=
  Message 99 [.number 1 fun _ => True, .number 2 (· = height.toNat)]

def ClientState.typeUrl : ClientState → String
  | .tendermint _ => "/ibc.lightclients.tendermint.v1.ClientState"
  | .solomachine _ => "/ibc.lightclients.solomachine.v3.ClientState"
  | .localhost => "/ibc.lightclients.localhost.v2.ClientState"

/-- The client in its own message, which is read apart. -/
def ClientState.ValueForm : ClientState → Bytes → Prop
  | .tendermint client =>
    Message 100 [
      .text 1 client.chain,
      .message 7 (client.latestHeight = 0) (HeightForm client.latestHeight)]
  | .solomachine sequence => Message 100 [.number 1 (· = sequence.toNat)]
  | .localhost => fun _ => True

def ClientState.Form (s : ClientState) : Bytes → Prop :=
  Message 99 [.text 1 s.typeUrl, .bytes 2 s.ValueForm]

/-- An answer holds the entry as its first field. -/
def Answer (Form : Bytes → Prop) : Bytes → Prop := Message 100 [.message 1 False Form]

/-! ## Records agree with the encodings -/

namespace Remote

variable {b : Bytes}

theorem accepts_endpoint {e : Endpoint} (h : e.Form b) :
    EndpointRecord.layout.Accepts 98 (fun r => r.port = e.port ∧ r.channel = e.channel) b :=
  Wire.Layout.accepts_texts rfl ⟨rfl, rfl⟩ (fun _ _ => ⟨rfl, rfl⟩) (fun _ _ => ⟨rfl, rfl⟩) h

def ChannelRecord.slots (c : ChannelEnd) : List (Slot ChannelRecord) := [
  .number 1 (· = c.state.number) fun r => stateOfCode? r.state = some c.state,
  .number 2 (· = c.order.number) fun r => orderOfCode? r.order = some c.order,
  .message 3 (c.counterparty = ⟨"", ""⟩) c.counterparty.Form (fun r => r.counterparty = none)
    fun r => (r.counterparty.getD {}).port = c.counterparty.port ∧
      (r.counterparty.getD {}).channel = c.counterparty.channel,
  .texts 4 c.hops ChannelRecord.hops,
  .text 5 c.version ChannelRecord.version]

theorem ChannelRecord.fills (c : ChannelEnd) : layout.Fills 99 (slots c) := by
  refine ⟨rfl, by decide, ?_⟩
  simp only [slots, List.forall_mem_cons]
  refine ⟨?state, ?order, ?counterparty, ?hops, ?version, List.forall_mem_nil _⟩
  case state =>
    apply Slot.int32_lawful rfl
    · intro hzero
      cases hstate : c.state <;> simp [hstate, ChannelState.number] at hzero
    · rintro r n rfl
      cases c.state <;> rfl
    · intro r x
      exact .own rfl (.other rfl (.other rfl (.other rfl (.other rfl .nil))))
  case order =>
    apply Slot.int32_lawful rfl
    · intro hzero
      cases horder : c.order <;> simp [horder, Order.number] at hzero
    · rintro r n rfl
      cases c.order <;> rfl
    · intro r x
      exact .other rfl (.own rfl (.other rfl (.other rfl (.other rfl .nil))))
  case counterparty =>
    apply Slot.message_lawful rfl (fun b hb => accepts_endpoint hb) rfl
    · intro habsent
      rw [habsent]
      exact ⟨rfl, rfl⟩
    · intro r e he
      exact he
    · intro r x
      exact .other rfl (.other rfl (.own rfl (.other rfl (.other rfl .nil))))
  case hops =>
    apply Slot.texts_lawful rfl rfl (fun _ _ => rfl)
    intro r x
    exact .other rfl (.other rfl (.other rfl (.own rfl (.other rfl .nil))))
  case version =>
    apply Slot.text_lawful rfl rfl (fun _ => rfl)
    intro r
    exact .other rfl (.other rfl (.other rfl (.other rfl (.own rfl .nil))))

theorem accepts_channel {c : ChannelEnd} (h : c.Form b) :
    ChannelRecord.layout.Accepts 99 (fun r => channelOfRecord? r = some c) b := by
  apply ((ChannelRecord.fills c).accepts h).imp
  intro r hr
  simp only [ChannelRecord.slots, List.forall_mem_cons,
    Slot.carries_once_nil, Slot.carries_texts_nil] at hr
  obtain ⟨hstate, horder, ⟨hport, hchannel⟩, hhops, hversion, -⟩ := hr
  simp only [channelOfRecord?, hstate, horder, hport, hchannel, hhops, hversion]
  rfl

theorem accepts_connectionCounterparty {c : ConnectionCounterparty} (h : c.Form b) :
    ConnectionCounterpartyRecord.layout.Accepts 98
      (fun r => r.client = c.client ∧ r.connection = c.connection) b :=
  Wire.Layout.accepts_texts rfl ⟨rfl, rfl⟩ (fun _ _ => ⟨rfl, rfl⟩) (fun _ _ => ⟨rfl, rfl⟩) h

def ConnectionRecord.slots (c : ConnectionEnd) : List (Slot ConnectionRecord) := [
  .text 1 c.client ConnectionRecord.client,
  .number 3 (fun _ => True) fun _ => True,
  .message 4 (c.counterparty = ⟨"", ""⟩) c.counterparty.Form (fun r => r.counterparty = none)
    fun r => (r.counterparty.getD {}).client = c.counterparty.client ∧
      (r.counterparty.getD {}).connection = c.counterparty.connection,
  .number 5 (fun _ => True) fun _ => True]

theorem ConnectionRecord.fills (c : ConnectionEnd) : layout.Fills 99 (slots c) := by
  refine ⟨rfl, by decide, ?_⟩
  simp only [slots, List.forall_mem_cons]
  refine ⟨?client, ?state, ?counterparty, ?delay, List.forall_mem_nil _⟩
  case client =>
    apply Slot.text_lawful rfl rfl (fun _ => rfl)
    intro r
    exact .own rfl (.other rfl (.other rfl (.other rfl .nil)))
  case state =>
    apply Slot.int32_lawful rfl id (fun _ _ h => h)
    intro r x
    exact .other rfl (.own rfl (.other rfl (.other rfl .nil)))
  case counterparty =>
    apply Slot.message_lawful rfl (fun b hb => accepts_connectionCounterparty hb) rfl
    · intro habsent
      rw [habsent]
      exact ⟨rfl, rfl⟩
    · intro r e he
      exact he
    · intro r x
      exact .other rfl (.other rfl (.own rfl (.other rfl .nil)))
  case delay =>
    apply Slot.uint64_lawful rfl id (fun _ _ h => h)
    intro r x
    exact .other rfl (.other rfl (.other rfl (.own rfl .nil)))

theorem accepts_connection {c : ConnectionEnd} (h : c.Form b) :
    ConnectionRecord.layout.Accepts 99 (fun r => connectionOfRecord r = c) b := by
  apply ((ConnectionRecord.fills c).accepts h).imp
  intro r hr
  simp only [ConnectionRecord.slots, List.forall_mem_cons, Slot.carries_once_nil] at hr
  obtain ⟨hclient, -, ⟨hother, hconnection⟩, -⟩ := hr
  simp only [connectionOfRecord, hclient, hother, hconnection]

/-! ### Clients -/

def HeightRecord.slots (height : UInt64) : List (Slot HeightRecord) := [
  .number 1 (fun _ => True) fun _ => True,
  .number 2 (· = height.toNat) fun r => r.height = height]

theorem HeightRecord.fills (height : UInt64) : layout.Fills 99 (slots height) := by
  refine ⟨rfl, by decide, ?_⟩
  simp only [slots, List.forall_mem_cons]
  refine ⟨?revision, ?height, List.forall_mem_nil _⟩
  case revision =>
    apply Slot.uint64_lawful rfl id (fun _ _ h => h)
    intro r x
    exact .own rfl (.other rfl .nil)
  case height =>
    apply Slot.uint64_lawful rfl
    · intro hzero
      exact UInt64.toNat_inj.1 hzero
    · rintro r n rfl
      exact UInt64.ofNat_toNat
    · intro r x
      exact .other rfl (.own rfl .nil)

theorem accepts_height {height : UInt64} (h : HeightForm height b) :
    HeightRecord.layout.Accepts 99 (fun r => r.height = height) b := by
  apply ((HeightRecord.fills height).accepts h).imp
  intro r hr
  simp only [HeightRecord.slots, List.forall_mem_cons, Slot.carries_once_nil] at hr
  exact hr.2.1

def TendermintRecord.slots (client : TendermintClient) : List (Slot TendermintRecord) := [
  .text 1 client.chain TendermintRecord.chain,
  .message 7 (client.latestHeight = 0) (HeightForm client.latestHeight)
    (fun r => r.latestHeight = none)
    fun r => (r.latestHeight.map (·.height)).getD 0 = client.latestHeight]

theorem TendermintRecord.fills (client : TendermintClient) :
    layout.Fills 100 (slots client) := by
  refine ⟨rfl, by decide, ?_⟩
  simp only [slots, List.forall_mem_cons]
  refine ⟨?chain, ?latestHeight, List.forall_mem_nil _⟩
  case chain =>
    apply Slot.text_lawful rfl rfl (fun _ => rfl)
    intro r
    exact .own rfl (.other rfl .nil)
  case latestHeight =>
    apply Slot.message_lawful rfl (fun b hb => accepts_height hb) rfl
    · intro hzero
      exact hzero.symm
    · intro r x hx
      exact hx
    · intro r x
      exact .other rfl (.own rfl .nil)

def SolomachineRecord.slots (sequence : UInt64) : List (Slot SolomachineRecord) := [
  .number 1 (· = sequence.toNat) fun r => r.sequence = sequence]

theorem SolomachineRecord.fills (sequence : UInt64) : layout.Fills 100 (slots sequence) := by
  refine ⟨rfl, by decide, ?_⟩
  simp only [slots, List.forall_mem_cons]
  refine ⟨?_, List.forall_mem_nil _⟩
  apply Slot.uint64_lawful rfl
  · intro hzero
    exact UInt64.toNat_inj.1 hzero
  · rintro r n rfl
    exact UInt64.ofNat_toNat
  · intro r x
    exact .own rfl .nil

def AnyRecord.slots (s : ClientState) : List (Slot AnyRecord) := [
  .text 1 s.typeUrl AnyRecord.typeUrl,
  .bytes 2 s.ValueForm fun r => s.ValueForm r.value]

theorem AnyRecord.fills (s : ClientState) : layout.Fills 99 (slots s) := by
  refine ⟨rfl, by decide, ?_⟩
  simp only [slots, List.forall_mem_cons]
  refine ⟨?typeUrl, ?value, List.forall_mem_nil _⟩
  case typeUrl =>
    apply Slot.text_lawful rfl rfl (fun _ => rfl)
    intro r
    exact .own rfl (.other rfl .nil)
  case value =>
    apply Slot.bytes_lawful rfl
    · intro hempty
      exact hempty
    · intro r x hx
      exact hx
    · intro r x
      exact .other rfl (.own rfl .nil)

/-- The value is read by the record that its URL is for. -/
theorem clientOfRecord_eq_ok {s : ClientState} {r : AnyRecord} (hurl : r.typeUrl = s.typeUrl)
    (hvalue : s.ValueForm r.value) : clientOfRecord r = .ok s := by
  cases s with
  | tendermint client =>
      obtain ⟨record, hread, hrecord⟩ :=
        ((TendermintRecord.fills client).accepts hvalue).read
      simp only [TendermintRecord.slots, List.forall_mem_cons, Slot.carries_once_nil] at hrecord
      obtain ⟨hchain, hheight, -⟩ := hrecord
      have hurl : r.typeUrl = tendermintUrl := hurl
      have hclient : TendermintClient.mk record.chain
          ((record.latestHeight.map (·.height)).getD 0) = client := by rw [hchain, hheight]
      rw [clientOfRecord, if_pos hurl, hread, ← hclient]
      rfl
  | solomachine sequence =>
      obtain ⟨record, hread, hrecord⟩ :=
        ((SolomachineRecord.fills sequence).accepts hvalue).read
      simp only [SolomachineRecord.slots, List.forall_mem_cons, Slot.carries_once_nil] at hrecord
      have hurl : r.typeUrl = solomachineUrl := hurl
      have hother : r.typeUrl ≠ tendermintUrl := by
        rw [hurl]
        decide
      rw [clientOfRecord, if_neg hother, if_pos hurl, hread]
      simp only [← hrecord.1]
      rfl
  | localhost =>
      have hurl : r.typeUrl = localhostUrl := hurl
      have hother : r.typeUrl ≠ tendermintUrl ∧ r.typeUrl ≠ solomachineUrl := by
        rw [hurl]
        decide
      rw [clientOfRecord, if_neg hother.1, if_neg hother.2, if_pos hurl]
      rfl

theorem accepts_client {s : ClientState} (h : s.Form b) :
    AnyRecord.layout.Accepts 99 (fun r => clientOfRecord r = .ok s) b := by
  apply ((AnyRecord.fills s).accepts h).imp
  intro r hr
  simp only [AnyRecord.slots, List.forall_mem_cons, Slot.carries_once_nil] at hr
  exact clientOfRecord_eq_ok hr.1 hr.2.1

end Remote

end Custody.Ibc
