import Custody.Contract.Message
import Custody.Escrow.Export
import Custody.Escrow.Lifecycle
import Custody.Ledger.AccountRegistry
import Custody.Ledger.ChannelSet
import Custody.Ledger.Settings

/-!
# The contract

Setting up, running a command, answering a query. Commands keep funds in the contract's own account.
-/

namespace Custody.Contract

/-- The block and the contract that a call runs in. -/
structure Env where
  height : UInt64
  contract : Address
  deriving DecidableEq

def instantiate (m : Setup) : Operation Store Response := do
  let c := m.config
  if c.hrp = "" then throw (.invalidRequest .emptyHrp)
  Operation.lift (requireDenom c.baseDenom)
  modify (Settings.save · c)
  return {
    attributes := [
      ("method", "instantiate"),
      ("base_denom", c.baseDenom),
      ("trusted_consumer_chain_id", c.trustedChain)] }

/-- Runs an operation on escrows with the attached funds as its bank, and returns the transfers it
queued. -/
def withFunds (env : Env) (call : Call) (x : Operation (Vault AttachedFunds) α) :
    Operation Store (α × List Transfer) := fun s =>
  match x ⟨s, { contract := env.contract, call }⟩ with
  | .ok a v => .ok (a, v.bank.queue) v.store
  | .error e v => .error e v.store

def initiate (env : Env) (call : Call) (cfg : Config) (m : Initiate) :
    Operation Store Response := do
  Operation.lift (m.check cfg.hrp)
  let (id, transfers) ← withFunds env call (Vault.initiate cfg m)
  return {
    transfers
    attributes := [
      ("method", "escrow_initial"),
      ("escrow_id", id),
      ("consumer_chain_id", m.chain),
      ("amount", m.amount.text)]
    data := some (Json.encode (InitiateAnswer.mk id)) }

def requireNoFunds (call : Call) : Except Error Unit :=
  if call.funds = [] then .ok () else .error .notPayable

def cancel (env : Env) (call : Call) (cfg : Config) (m : Cancel) : Operation Store Response := do
  Operation.lift (requireNoFunds call)
  Operation.lift (m.check cfg.hrp)
  let (e, transfers) ← withFunds env call (Vault.cancel cfg m)
  return {
    transfers
    attributes := [
      ("method", "cancel_escrow"),
      ("escrow_id", e.id),
      ("consumer_chain_id", e.chain),
      ("amount", e.amount.text)] }

def claim (env : Env) (call : Call) (cfg : Config) (m : Claim) : Operation Store Response := do
  Operation.lift (requireNoFunds call)
  Operation.lift (m.check cfg.hrp)
  let (e, _) ← withFunds env call (Vault.claim m)
  return {
    attributes := [
      ("method", "mark_escrow_claimed"),
      ("escrow_id", e.id),
      ("consumer_chain_id", m.chain),
      ("amount", e.amount.text)] }

def execute (env : Env) (call : Call) (command : Command) : Operation Store Response := do
  let cfg ← Operation.reading Settings.load
  match command with
  | .initiate chain amount recipient expiryHeight expiryTime =>
    initiate env call cfg {
      sender := call.sender
      chain
      amount
      recipient := recipient.getD ""
      expiryHeight := expiryHeight.getD 0
      expiryTime := expiryTime.getD 0 }
  | .cancel chain denom => cancel env call cfg { sender := call.sender, chain, denom }
  | .claim escrowId chain => claim env call cfg { sender := call.sender, escrowId, chain }

def defaultLimit : Nat := 30

def maxLimit : Nat := 100

/-- An empty filter is none. -/
def statusFilter : Option String → Except Error (Option Status)
  | none | some "" => .ok none
  | some text => (Status.read text).map some

def queryEscrows (s : Store) (status start : Option String) (limit : Option UInt32) :
    Except Error EscrowsAnswer := do
  let wanted ← statusFilter status
  let count := min ((limit.map (·.toNat)).getD defaultLimit) maxLimit
  let keep (e : Escrow) : Bool := wanted.all (· == e.status)
  return { escrows := ← Ledger.first keep count (Ledger.records s start) }

def queryProof (env : Env) (s : Store) (chain denom : String) (height : Option UInt64)
    (prove : Option Bool) : Except Error ProofAnswer := do
  if prove = some true then throw .membershipProof
  let cfg ← Settings.load s
  match ← Export.describe s cfg chain denom (height.getD 0) env.height with
  | .rejected requested current => .error (.invalidRequest (.otherHeight requested current))
  | .current p => return {
      height := p.height
      value := p.value
      keyPath := p.keyPath
      escrowId := p.escrowId
      denom := p.amount.denom
      amount := p.amount.amount.text }

def query (env : Env) (s : Store) : Query → Except Error Answer
  | .escrow chain denom => do
    requireNonBlank chain "consumer_chain_id"
    requireNonBlank denom "denom"
    return .escrow { escrow := ← Ledger.byRoute s chain denom }
  | .escrowById id => return .escrow { escrow := ← Ledger.byId s id }
  | .escrows status start limit => return .escrows (← queryEscrows s status start limit)
  | .proof chain denom height prove => return .proof (← queryProof env s chain denom height prove)
  | .account chain => return .account { account := ← AccountRegistry.find? s chain }
  | .channels => return .channels { channels := ← ChannelSet.toList s }
  | .config => return .config (← Settings.load s)

end Custody.Contract
