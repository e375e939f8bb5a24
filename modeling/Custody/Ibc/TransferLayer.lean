import Custody.Ibc.Application
import Custody.Ibc.DenomTrace
import Custody.Ledger.ChannelSet

/-!
# The transfer layer

Keeps the set of channels that lead to the trusted chain. A packet on one of them that brings back
this chain's own token, as minted over there, is paid out of the channel's escrow account; all
else is left to the application.
-/

namespace Custody.Ibc.Transfer

variable {β ω : Type}

/-- Allows a channel of the transfer port if the trusted chain is at its other end. -/
def track (cfg : Config) (d : Directory) (e : Endpoint) : Operation (World β ω) Unit := do
  if e.port = cfg.transferPort then
    match ← World.consult (d.chainOf e) with
    | .ok chain =>
      if chain = cfg.trustedChain then
        World.onVault (Vault.onStore (modify (ChannelSet.insert · e.channel)))
    | .error _ => return ()

def untrack (cfg : Config) (e : Endpoint) : Operation (World β ω) Unit := do
  if e.port = cfg.transferPort then
    World.onVault (Vault.onStore (modify (ChannelSet.erase · e.channel)))

/-- Whether a packet came from the transfer port over an allowed channel. -/
def concerns (cfg : Config) (s : Store) (p : Packet) : Bool :=
  p.source.port == cfg.transferPort && ChannelSet.contains s p.destination.channel

/-- Whether transferred tokens are this chain's own, minted on the sending chain. Tokens that once
left from here over the same channel are not: the application unlocks those. -/
def returnsHome (cfg : Config) (p : Packet) (denom : String) : Bool :=
  !startsAtSource p.source.port p.source.channel denom &&
    (DenomTrace.read denom).baseDenom == cfg.baseDenom

/-- The amount of a transfer, unless it is not a number or is zero. -/
def amount? (text : String) : Option Amount :=
  match Amount.read text with
  | .error _ => none
  | .ok a => if a.val = 0 then none else some a

variable [Custodian β]

/-- Pays the tokens of a packet out of the escrow account of the channel it came over. -/
def release (cfg : Config) (p : Packet) (data : TransferData) :
    Operation (World β ω) Acknowledgement := do
  match Address.validate cfg.hrp data.receiver with
  | .error _ => return .error "invalid receiver"
  | .ok receiver =>
    match amount? data.amount with
    | none => return .error "invalid amount"
    | some amount =>
      match Address.ofChannelEscrow cfg.hrp p.destination.port p.destination.channel with
      | .error why => return .error (Error.internal (.unencodableAddress why)).message
      | .ok escrow =>
        let w ← get
        match Custodian.send w.vault.bank escrow receiver ⟨cfg.baseDenom, amount⟩ with
        | .ok bank =>
          set { w with vault := { w.vault with bank } }
          return .success
        | .error (.aborted why) => throw (.aborted why)
        | .error _ => return .error "release failed"

def receive (cfg : Config) (app : Application β ω) (p : Packet) (relayer : Address) :
    Operation (World β ω) Reply := do
  let w ← get
  if concerns cfg w.vault.store p then
    match Json.decode? TransferData p.data with
    | none => return .acknowledged (.error "invalid packet data")
    | some data =>
      if returnsHome cfg p data.denom then return .acknowledged (← release cfg p data)
      else app (.receive p relayer)
  else app (.receive p relayer)

/-- Packets may end here; every other callback belongs to the application. -/
def forward (cfg : Config) (app : Application β ω) : Application β ω
  | .receive p relayer => receive cfg app p relayer
  | c => app c

/-- The layer around an application. -/
def layer (cfg : Config) (d : Directory) (app : Application β ω) : Application β ω := fun c => do
  if let some e := c.opened? then track cfg d e
  if let some e := c.closed? then untrack cfg e
  forward cfg app c

end Custody.Ibc.Transfer
