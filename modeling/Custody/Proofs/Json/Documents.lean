import Custody.Contract.Message
import Custody.Escrow.Message
import Custody.Ibc.Handshake
import Custody.Ibc.Packet
import Custody.Ledger.Settings
import Custody.Proofs.Escrow.Codec
import Custody.Proofs.Json.Form

/-!
# Documents

Everything that is exchanged or stored as JSON text is read back as it was. So different values of a
kind have different texts. Main statement: `documents_read_back`.
-/

namespace Custody

open JsonForm (Lawful)

/-! ## Coins and escrows -/

instance : Lawful 0 Amount where
  read a := by
    change (Amount.read a.text).toOption = some a
    rw [Amount.read_text]
    rfl
  fits _ := trivial
  ne_null _ h := by cases h

instance : Lawful 1 Coin := by
  apply JsonForm.lawful_of_obj fun _ => rfl
  · simp [ofJson?]
  · simp

instance : Lawful 0 Status where
  read a := by cases a <;> rfl
  fits a := by cases a <;> trivial
  ne_null a h := by cases a <;> cases h

instance : Lawful 2 Escrow := by
  apply JsonForm.lawful_of_obj fun _ => rfl
  · simp [ofJson?]
  · simp

instance : Lawful 2 Initiate := by
  apply JsonForm.lawful_of_obj fun _ => rfl
  · simp [ofJson?]
  · simp

instance : Lawful 1 Cancel := by
  apply JsonForm.lawful_of_obj fun _ => rfl
  · simp [ofJson?]
  · simp

instance : Lawful 1 Claim := by
  apply JsonForm.lawful_of_obj fun _ => rfl
  · simp [ofJson?]
  · simp

/-! ## The contract -/

instance : Lawful 1 Config := by
  apply JsonForm.lawful_of_obj fun _ => rfl
  · simp [ofJson?]
  · simp

instance : Lawful 1 Settings.Version := by
  apply JsonForm.lawful_of_obj fun _ => rfl
  · simp [ofJson?]
  · simp

instance : Lawful 1 Setup := by
  apply JsonForm.lawful_of_obj fun _ => rfl
  · simp [ofJson?]
  · simp

instance : Lawful 3 Command where
  read a := by
    cases a <;> (change ofJson? (Json.variant _ _) = _; simp [ofJson?])
  fits a := by
    cases a <;> (change (Json.variant _ _).Fits 3; simp)
  ne_null a h := by cases a <;> cases h

instance : Lawful 2 Query where
  read a := by
    cases a <;> (change ofJson? (Json.variant _ _) = _; simp [ofJson?])
  fits a := by
    cases a <;> (change (Json.variant _ _).Fits 2; simp)
  ne_null a h := by cases a <;> cases h

instance : Lawful 3 EscrowAnswer := by
  apply JsonForm.lawful_of_obj fun _ => rfl
  · simp [ofJson?]
  · simp

instance : Lawful 4 EscrowsAnswer := by
  apply JsonForm.lawful_of_obj fun _ => rfl
  · simp [ofJson?]
  · simp

instance : Lawful 2 ProofAnswer := by
  apply JsonForm.lawful_of_obj fun _ => rfl
  · simp [ofJson?, Json.lookup_cons_ne]
  · simp

instance : Lawful 1 AccountAnswer := by
  apply JsonForm.lawful_of_obj fun _ => rfl
  · simp [ofJson?]
  · simp

instance : Lawful 2 ChannelsAnswer := by
  apply JsonForm.lawful_of_obj fun _ => rfl
  · simp [ofJson?]
  · simp

instance : Lawful 1 InitiateAnswer := by
  apply JsonForm.lawful_of_obj fun _ => rfl
  · simp [ofJson?]
  · simp

/-! ## Channels -/

namespace Ibc

instance : Lawful 0 Order where
  read a := by cases a <;> rfl
  fits a := by cases a <;> trivial
  ne_null a h := by cases a <;> cases h

instance : Lawful 1 Endpoint := by
  apply JsonForm.lawful_of_obj fun _ => rfl
  · simp [ofJson?]
  · simp

instance : Lawful 0 ChannelState where
  read a := by cases a <;> rfl
  fits a := by cases a <;> trivial
  ne_null a h := by cases a <;> cases h

instance : Lawful 2 ChannelEnd := by
  apply JsonForm.lawful_of_obj fun _ => rfl
  · simp [ofJson?]
  · simp

instance : Lawful 1 ConnectionCounterparty := by
  apply JsonForm.lawful_of_obj fun _ => rfl
  · simp [ofJson?]
  · simp

instance : Lawful 2 ConnectionEnd := by
  apply JsonForm.lawful_of_obj fun _ => rfl
  · simp [ofJson?]
  · simp

instance : Lawful 1 TendermintClient := by
  apply JsonForm.lawful_of_obj fun _ => rfl
  · simp [ofJson?]
  · simp

instance : Lawful 2 ClientState where
  read a := by
    cases a <;> (change ofJson? (Json.variant _ (Json.obj _)) = _; simp [ofJson?])
  fits a := by
    cases a <;> (change (Json.variant _ _).Fits 2; simp)
  ne_null a h := by cases a <;> cases h

instance : Lawful 2 OpenInit := by
  apply JsonForm.lawful_of_obj fun _ => rfl
  · simp [ofJson?]
  · simp

instance : Lawful 2 OpenTry := by
  apply JsonForm.lawful_of_obj fun _ => rfl
  · simp [ofJson?]
  · simp

instance : Lawful 1 OpenAck := by
  apply JsonForm.lawful_of_obj fun _ => rfl
  · simp [ofJson?]
  · simp

instance : Lawful 1 TransferData := by
  apply JsonForm.lawful_of_obj fun _ => rfl
  · simp [ofJson?]
  · simp

instance : Lawful 1 Acknowledgement where
  read a := by
    cases a <;> (change ofJson? (Json.variant _ _) = _; simp [ofJson?])
  fits a := by
    cases a <;> (change (Json.variant _ _).Fits 1; simp)
  ne_null a h := by cases a <;> cases h

end Ibc

/-! ## All documents -/

/-- A type of values that are exchanged or stored, with their JSON form. -/
structure Document where
  Value : Type
  form : JsonForm Value

namespace Document

instance (d : Document) : JsonForm d.Value := d.form

def of (α : Type) [form : JsonForm α] : Document := ⟨α, form⟩

/-- What the contract is asked and what it answers. -/
def messages : List Document := [.of Setup, .of Command, .of Query, .of EscrowAnswer,
  .of EscrowsAnswer, .of ProofAnswer, .of AccountAnswer, .of ChannelsAnswer, .of Initiate,
  .of InitiateAnswer, .of Cancel, .of Claim]

/-- What is kept in the store, or is part of it. -/
def state : List Document := [.of Config, .of Settings.Version, .of Address, .of Escrow,
  .of Status, .of Coin]

/-- What is told of channels, in handshakes and in packets. A counterparty, the confirmation of an
opened channel and the notice of a closed one are endpoints. -/
def ibc : List Document := [.of Ibc.Order, .of Ibc.Endpoint, .of Ibc.ChannelState,
  .of Ibc.ChannelEnd, .of Ibc.ConnectionCounterparty, .of Ibc.ConnectionEnd,
  .of Ibc.TendermintClient, .of Ibc.ClientState, .of Ibc.OpenInit, .of Ibc.OpenTry,
  .of Ibc.OpenAck, .of Ibc.TransferData, .of Ibc.Acknowledgement]

def all : List Document := messages ++ state ++ ibc

/-- The text of a value is read as the value. -/
def ReadBack (d : Document) : Prop :=
  ∀ v : d.Value, Json.decode? d.Value (Json.encode v) = some v

theorem readBack_of {depth : Nat} {α : Type} [JsonForm α] [Lawful depth α]
    (hdepth : depth < Json.maxDepth) (hclosed : ∀ a : α, (toJson a).Closed) :
    ReadBack (.of α) :=
  @Json.decode?_encode_of_closed depth α _ _ hdepth hclosed

theorem readBack_messages : ∀ d ∈ messages, d.ReadBack := by
  simp only [messages, List.forall_mem_cons]
  refine ⟨?_, ?_, ?_, ?_, ?_, ?_, ?_, ?_, ?_, ?_, ?_, ?_, by simp⟩
  all_goals exact readBack_of (by decide) fun a => by cases a <;> trivial

theorem readBack_state : ∀ d ∈ state, d.ReadBack := by
  simp only [state, List.forall_mem_cons]
  refine ⟨?_, ?_, ?_, ?_, ?_, ?_, by simp⟩
  all_goals exact readBack_of (by decide) fun a => by cases a <;> trivial

theorem readBack_ibc : ∀ d ∈ ibc, d.ReadBack := by
  simp only [ibc, List.forall_mem_cons]
  refine ⟨?_, ?_, ?_, ?_, ?_, ?_, ?_, ?_, ?_, ?_, ?_, ?_, ?_, by simp⟩
  all_goals exact readBack_of (by decide) fun a => by cases a <;> trivial

theorem readBack_all : ∀ d ∈ all, d.ReadBack := by
  simp only [all, List.forall_mem_append]
  exact ⟨⟨readBack_messages, readBack_state⟩, readBack_ibc⟩

end Document

theorem Settings.load_save (s : Store) (c : Config) : load (save s c) = .ok c := by
  have hget : (save s c).get Store.Key.config = some (Json.encode c) :=
    (Store.get_insert _ _ _ _).trans (if_pos rfl)
  have hread : Json.decode? Config (Json.encode c) = some c :=
    Document.readBack_state (.of Config) (by simp [Document.state]) c
  rw [load, hget]
  simp only [hread]

/-- The text of any document is read as the value that it was written of, so different values of a
kind have different texts, and a stored configuration is loaded as it was saved. -/
theorem documents_read_back {d : Document} (hd : d ∈ Document.all) :
    (∀ v : d.Value, Json.decode? d.Value (Json.encode v) = some v) ∧
    (∀ v w : d.Value, Json.encode v = Json.encode w → v = w) ∧
    ∀ s c, Settings.load (Settings.save s c) = .ok c := by
  have hread := Document.readBack_all d hd
  refine ⟨hread, ?_, Settings.load_save⟩
  intro v w htext
  apply Option.some.inj
  rw [← hread v, htext, hread w]

theorem documents_read_back_escapes :
    let largest : Amount := ⟨2 ^ 128 - 1, by decide⟩
    let e : Escrow := ⟨"\"\\/\x00\n", "é≤", ⟨"", largest⟩, "", 18446744073709551615, 0, .canceled⟩
    Document.of EscrowAnswer ∈ Document.all ∧
      Json.decode? EscrowAnswer (Json.encode (EscrowAnswer.mk (some e))) = some ⟨some e⟩ ∧
      Json.encode (EscrowAnswer.mk (some e)) ≠ Json.encode (EscrowAnswer.mk none) := by
  intro largest e
  have hd : Document.of EscrowAnswer ∈ Document.all := by simp [Document.all, Document.messages]
  have hread := (documents_read_back hd).1
  have hapart := (documents_read_back hd).2.1
  exact ⟨hd, hread ⟨some e⟩, fun htext => by cases hapart ⟨some e⟩ ⟨none⟩ htext⟩

end Custody
