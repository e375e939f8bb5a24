import Custody.Ibc.Channel
import Custody.Table

/-!
# Directories

Where channels, connections and clients are looked up. A look-up yields its answer and the
requests that it made to get it. From a directory follows who sits at the other end of a channel.
-/

namespace Custody.Ibc

/-- A question to the host. -/
structure Request where
  path : String
  data : Bytes
  deriving DecidableEq

structure Lookup (α : Type) where
  value : α
  requests : List Request := []

instance : Monad Lookup where
  pure a := { value := a }
  bind x f := { value := (f x.value).value, requests := x.requests ++ (f x.value).requests }

structure Directory where
  channel : Endpoint → Lookup (Option ChannelEnd)
  connection : String → Lookup (Option ConnectionEnd)
  client : String → Lookup (Option ClientState)

/-- Who sits at the other end of a channel. -/
structure Identity where
  chain : String
  connection : String
  counterpartyPort : String
  deriving DecidableEq

inductive ResolveFault where
  | noChannel (e : Endpoint)
  | noHop (channel : String)
  | noConnection (id : String)
  | noClient (id : String)
  | otherClient (id kind : String)
  deriving DecidableEq

def ResolveFault.message : ResolveFault → String
  | .noChannel e => s!"channel {e.port}/{e.channel} not found"
  | .noHop channel => s!"channel {channel} has no connection hop"
  | .noConnection id => s!"connection {id} not found"
  | .noClient id => s!"client state {id} not found"
  | .otherClient id kind => s!"unexpected client state type {kind} for {id}"

/-- Fails when a look-up finds nothing. -/
def Lookup.require (x : Lookup (Option α)) (fault : ε) : ExceptT ε Lookup α :=
  ExceptT.mk do
    match ← x with
    | none => return .error fault
    | some a => return .ok a

namespace Directory

/-- Goes from the channel to its first connection, on to the client that the counterparty names
there, and takes the chain from that client's state. -/
def resolve (d : Directory) (e : Endpoint) : ExceptT ResolveFault Lookup Identity := do
  let channel ← (d.channel e).require (.noChannel e)
  match channel.hops.head? with
  | none => throw (.noHop e.channel)
  | some hop =>
    let connection ← (d.connection hop).require (.noConnection hop)
    let id := connection.counterparty.client
    match ← (d.client id).require (.noClient id) with
    | .tendermint client => return {
        chain := client.chain
        connection := hop
        counterpartyPort := channel.counterparty.port }
    | other => throw (.otherClient id other.kind)

def chainOf (d : Directory) (e : Endpoint) : ExceptT ResolveFault Lookup String := do
  return (← d.resolve e).chain

end Directory

/-- Channels, connections and clients in tables of their own. -/
structure Registry where
  channels : Table Endpoint ChannelEnd := .empty
  connections : Table String ConnectionEnd := .empty
  clients : Table String ClientState := .empty

namespace Registry

def directory (r : Registry) : Directory where
  channel e := pure (r.channels.get? e)
  connection id := pure (r.connections.get? id)
  client id := pure (r.clients.get? id)

/-- An open channel between ports of the same name. -/
def addChannel (r : Registry) (e : Endpoint) (hops : List String) : Registry :=
  { r with channels := r.channels.insert e {
      state := .opened
      order := .unordered
      counterparty := { port := e.port, channel := "channel-0" }
      hops
      version := "" } }

def setCounterpartyPort (r : Registry) (e : Endpoint) (port : String) : Registry :=
  match r.channels.get? e with
  | none => r
  | some c =>
    { r with
      channels := r.channels.insert e { c with counterparty := { c.counterparty with port } } }

def addConnection (r : Registry) (id client counterpartyClient : String) : Registry :=
  { r with connections := r.connections.insert id {
      client
      counterparty := { client := counterpartyClient, connection := "connection-0" } } }

def addClient (r : Registry) (id : String) (state : ClientState) : Registry :=
  { r with clients := r.clients.insert id state }

/-- A channel over one connection to a client that follows a chain. -/
def addTendermintChannel (r : Registry) (e : Endpoint) (connection client chain : String) :
    Registry :=
  ((r.addChannel e [connection]).addConnection connection client client).addClient client
    (.tendermint { chain, latestHeight := 1 })

end Registry

end Custody.Ibc
