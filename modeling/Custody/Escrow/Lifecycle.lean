import Custody.Bank.Custodian
import Custody.Config
import Custody.Escrow.Message
import Custody.Ledger.Basic
import Custody.Ledger.Depositors

/-!
# The life of an escrow

Funds go into custody when an escrow is initiated and come back to the depositor when it is
canceled. A claim moves nothing: the funds have left by another way. Claimed and canceled are
final.
-/

namespace Custody

/-- The store and the bank that an operation works on. -/
structure Vault (β : Type) where
  store : Store
  bank : β

namespace Vault

variable {β : Type}

def onStore (x : Operation Store α) : Operation (Vault β) α :=
  .within store (fun v s => { v with store := s }) x

def readingStore (f : Store → Except Error α) : Operation (Vault β) α :=
  .reading fun v => f v.store

variable [Custodian β]

def send (source target : Address) (c : Coin) : Operation (Vault β) Unit := fun v =>
  match Custodian.send v.bank source target c with
  | .ok bank => .ok () { v with bank }
  | .error e => .error e v

/-- The account that holds the funds of all pending escrows. -/
def custody (cfg : Config) : Operation (Vault β) Address :=
  .reading fun v => Custodian.moduleAddress v.bank cfg.moduleName

/-- Takes the funds into custody and records a pending escrow, whose id it returns. -/
def initiate (cfg : Config) (m : Initiate) : Operation (Vault β) String := do
  Operation.lift (requireCoin m.amount)
  let sender ← Operation.lift (requireAddress cfg.hrp m.sender)
  let custody ← custody cfg
  send sender custody m.amount
  let id ← onStore Ledger.nextId
  onStore (Ledger.put {
    id
    chain := m.chain
    amount := m.amount
    recipient := m.recipient
    expiryHeight := m.expiryHeight
    expiryTime := m.expiryTime
    status := .pending })
  onStore (modify (Depositors.insert · id sender))
  return id

/-- The pending escrow that a route points to. -/
def pendingOnRoute (s : Store) (chain denom : String) : Except Error Escrow := do
  match ← Ledger.byRoute s chain denom with
  | none => .error (.notFound (.pendingEscrow chain denom))
  | some e =>
    if e.status = .pending then .ok e else .error (.notFound (.pendingEscrow chain denom))

/-- Gives the funds of a pending escrow back. One that is missing, settled, or funded by somebody
else is refused in the same words. -/
def cancel (cfg : Config) (m : Cancel) : Operation (Vault β) Escrow := do
  let sender ← Operation.lift (requireAddress cfg.hrp m.sender)
  let e ← readingStore (pendingOnRoute · m.chain m.denom)
  let owner ← readingStore (Depositors.find? · e.id)
  if owner ≠ some sender then throw (.notFound (.pendingEscrow m.chain m.denom))
  let custody ← custody cfg
  send custody sender e.amount
  let e := { e with status := .canceled }
  onStore (Ledger.put e)
  return e

/-- Settles a pending escrow whose funds have left. -/
def claim (m : Claim) : Operation (Vault β) Escrow := do
  match ← readingStore (Ledger.byId · m.escrowId) with
  | none => throw (.notFound (.escrow m.escrowId))
  | some e =>
    if e.status ≠ .pending then throw .unauthorized
    let e := { e with status := .claimed }
    onStore (Ledger.put e)
    return e

end Vault

end Custody
