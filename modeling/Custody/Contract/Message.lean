import Custody.Bank.Attached
import Custody.Config
import Custody.Escrow.Basic

/-!
# Contract messages

What the contract is asked and what it answers, with their JSON forms.
-/

namespace Custody

/-- Settings chosen at set-up; the rest keep their defaults. -/
structure Setup where
  storeKey : Option String := none
  hrp : Option String := none
  baseDenom : Option String := none
  trustedChain : Option String := none
  deriving DecidableEq, Inhabited

def Setup.config (m : Setup) : Config :=
  let c : Config := {}
  { c with
    storeKey := m.storeKey.getD c.storeKey
    hrp := m.hrp.getD c.hrp
    baseDenom := m.baseDenom.getD c.baseDenom
    trustedChain := m.trustedChain.getD c.trustedChain }

instance : JsonForm Setup where
  toJson m := .obj [
    ("store_key", toJson m.storeKey),
    ("bech32_prefix", toJson m.hrp),
    ("base_denom", toJson m.baseDenom),
    ("trusted_consumer_chain_id", toJson m.trustedChain)]
  ofJson? j := do
    let m ← j.record? ["store_key", "bech32_prefix", "base_denom", "trusted_consumer_chain_id"]
    some {
      storeKey := ← Json.optional? m "store_key"
      hrp := ← Json.optional? m "bech32_prefix"
      baseDenom := ← Json.optional? m "base_denom"
      trustedChain := ← Json.optional? m "trusted_consumer_chain_id" }

inductive Command where
  | initiate (chain : String) (amount : Coin) (recipient : Option String)
      (expiryHeight expiryTime : Option UInt64)
  | cancel (chain denom : String)
  | claim (escrowId chain : String)
  deriving DecidableEq

instance : JsonForm Command where
  toJson
    | .initiate chain amount recipient expiryHeight expiryTime =>
      .variant "escrow_initial" (.obj [
        ("consumer_chain_id", toJson chain),
        ("amount", toJson amount),
        ("recipient", toJson recipient),
        ("expiry_height", toJson expiryHeight),
        ("expiry_time_unix", toJson expiryTime)])
    | .cancel chain denom =>
      .variant "cancel_escrow" (.obj [("consumer_chain_id", toJson chain), ("denom", toJson denom)])
    | .claim escrowId chain =>
      .variant "mark_escrow_claimed" (.obj [
        ("escrow_id", toJson escrowId),
        ("consumer_chain_id", toJson chain)])
  ofJson? j := do
    match ← j.variant? with
    | ("escrow_initial", some content) =>
      let m ← content.record? ["consumer_chain_id", "amount", "recipient", "expiry_height",
        "expiry_time_unix"]
      some (.initiate (← Json.member? m "consumer_chain_id") (← Json.member? m "amount")
        (← Json.optional? m "recipient") (← Json.optional? m "expiry_height")
        (← Json.optional? m "expiry_time_unix"))
    | ("cancel_escrow", some content) =>
      let m ← content.record? ["consumer_chain_id", "denom"]
      some (.cancel (← Json.member? m "consumer_chain_id") (← Json.member? m "denom"))
    | ("mark_escrow_claimed", some content) =>
      let m ← content.record? ["escrow_id", "consumer_chain_id"]
      some (.claim (← Json.member? m "escrow_id") (← Json.member? m "consumer_chain_id"))
    | _ => none

inductive Query where
  | escrow (chain denom : String)
  | escrowById (escrowId : String)
  | escrows (status start : Option String) (limit : Option UInt32)
  | proof (chain denom : String) (height : Option UInt64) (prove : Option Bool)
  | account (chain : String)
  | channels
  | config
  deriving DecidableEq

instance : JsonForm Query where
  toJson
    | .escrow chain denom =>
      .variant "escrow" (.obj [("consumer_chain_id", toJson chain), ("denom", toJson denom)])
    | .escrowById escrowId => .variant "escrow_by_id" (.obj [("escrow_id", toJson escrowId)])
    | .escrows status start limit =>
      .variant "escrows" (.obj [
        ("status_filter", toJson status),
        ("start_after", toJson start),
        ("limit", toJson limit)])
    | .proof chain denom height prove =>
      .variant "escrow_proof" (.obj [
        ("consumer_chain_id", toJson chain),
        ("denom", toJson denom),
        ("height", toJson height),
        ("prove", toJson prove)])
    | .account chain => .variant "authorized_ica" (.obj [("consumer_chain_id", toJson chain)])
    | .channels => .variant "allowed_channels" (.obj [])
    | .config => .variant "config" (.obj [])
  ofJson? j := do
    match ← j.variant? with
    | ("escrow", some content) =>
      let m ← content.record? ["consumer_chain_id", "denom"]
      some (.escrow (← Json.member? m "consumer_chain_id") (← Json.member? m "denom"))
    | ("escrow_by_id", some content) =>
      let m ← content.record? ["escrow_id"]
      some (.escrowById (← Json.member? m "escrow_id"))
    | ("escrows", some content) =>
      let m ← content.record? ["status_filter", "start_after", "limit"]
      some (.escrows (← Json.optional? m "status_filter") (← Json.optional? m "start_after")
        (← Json.optional? m "limit"))
    | ("escrow_proof", some content) =>
      let m ← content.record? ["consumer_chain_id", "denom", "height", "prove"]
      some (.proof (← Json.member? m "consumer_chain_id") (← Json.member? m "denom")
        (← Json.optional? m "height") (← Json.optional? m "prove"))
    | ("authorized_ica", some content) =>
      let m ← content.record? ["consumer_chain_id"]
      some (.account (← Json.member? m "consumer_chain_id"))
    | ("allowed_channels", some content) => (content.record? []).map fun _ => .channels
    | ("config", some content) => (content.record? []).map fun _ => .config
    | _ => none

structure EscrowAnswer where
  escrow : Option Escrow
  deriving DecidableEq

instance : JsonForm EscrowAnswer where
  toJson a := .obj [("escrow", toJson a.escrow)]
  ofJson? j := do
    let m ← j.record? ["escrow"]
    some { escrow := ← Json.optional? m "escrow" }

structure EscrowsAnswer where
  escrows : List Escrow
  deriving DecidableEq

instance : JsonForm EscrowsAnswer where
  toJson a := .obj [("escrows", toJson a.escrows)]
  ofJson? j := do
    let m ← j.record? ["escrows"]
    some { escrows := ← Json.member? m "escrows" }

structure ProofAnswer where
  height : UInt64
  value : Bytes
  keyPath : List String
  escrowId : String
  denom : String
  amount : String
  deriving DecidableEq

instance : JsonForm ProofAnswer where
  toJson a := .obj [
    ("height", toJson a.height),
    ("value", .ofBytes a.value),
    ("key_path", toJson a.keyPath),
    ("escrow_id", toJson a.escrowId),
    ("amount_denom", toJson a.denom),
    ("amount_value", toJson a.amount)]
  ofJson? j := do
    let m ← j.record? ["height", "value", "key_path", "escrow_id", "amount_denom", "amount_value"]
    some {
      height := ← Json.member? m "height"
      value := ← m.lookup "value" >>= Json.bytes?
      keyPath := ← Json.member? m "key_path"
      escrowId := ← Json.member? m "escrow_id"
      denom := ← Json.member? m "amount_denom"
      amount := ← Json.member? m "amount_value" }

structure AccountAnswer where
  account : Option Address
  deriving DecidableEq

instance : JsonForm AccountAnswer where
  toJson a := .obj [("ica_address", toJson a.account)]
  ofJson? j := do
    let m ← j.record? ["ica_address"]
    some { account := ← Json.optional? m "ica_address" }

structure ChannelsAnswer where
  channels : List String
  deriving DecidableEq

instance : JsonForm ChannelsAnswer where
  toJson a := .obj [("channels", toJson a.channels)]
  ofJson? j := do
    let m ← j.record? ["channels"]
    some { channels := ← Json.member? m "channels" }

structure InitiateAnswer where
  escrowId : String
  deriving DecidableEq

instance : JsonForm InitiateAnswer where
  toJson a := .obj [("escrow_id", toJson a.escrowId)]
  ofJson? j := do
    let m ← j.record? ["escrow_id"]
    some { escrowId := ← Json.member? m "escrow_id" }

inductive Answer where
  | escrow (a : EscrowAnswer)
  | escrows (a : EscrowsAnswer)
  | proof (a : ProofAnswer)
  | account (a : AccountAnswer)
  | channels (a : ChannelsAnswer)
  | config (c : Config)
  deriving DecidableEq

def Answer.toJson : Answer → Json
  | .escrow a => JsonForm.toJson a
  | .escrows a => JsonForm.toJson a
  | .proof a => JsonForm.toJson a
  | .account a => JsonForm.toJson a
  | .channels a => JsonForm.toJson a
  | .config c => JsonForm.toJson c

/-- What a call returns: the transfers it queued, its event, and perhaps data. -/
structure Response where
  transfers : List Transfer := []
  attributes : List (String × String) := []
  data : Option Bytes := none
  deriving DecidableEq

namespace Response

private def messageJson (t : Transfer) : Json :=
  .obj [
    ("id", .nat 0),
    ("msg", .variant "bank" t.toJson),
    ("gas_limit", .null),
    ("reply_on", .str "never")]

private def attributeJson (a : String × String) : Json :=
  .obj [("key", .str a.1), ("value", .str a.2)]

def toJson (r : Response) : Json :=
  .obj [
    ("messages", .arr (r.transfers.map messageJson)),
    ("attributes", .arr (r.attributes.map attributeJson)),
    ("events", .arr []),
    ("data", (r.data.map Json.ofBytes).getD .null)]

end Response

end Custody
