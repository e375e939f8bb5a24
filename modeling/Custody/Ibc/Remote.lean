import Custody.Ibc.Directory
import Custody.Wire.Layout

/-!
# The host's directory

Look-ups answered by the host's query services, as messages. Whatever goes wrong on the way, the
entry counts as absent.
-/

namespace Custody.Ibc.Remote

open Wire (Field Layout)

structure ChannelRequest where
  port : String := ""
  channel : String := ""

def ChannelRequest.layout : Layout ChannelRequest where
  name := "QueryChannelRequest"
  blank := {}
  fields := [
    Field.text 1 "port_id" port fun r s => { r with port := s },
    Field.text 2 "channel_id" channel fun r s => { r with channel := s }]

structure EndpointRecord where
  port : String := ""
  channel : String := ""

def EndpointRecord.layout : Layout EndpointRecord where
  name := "ChannelCounterpartyRecord"
  blank := {}
  fields := [
    Field.text 1 "port_id" port fun r s => { r with port := s },
    Field.text 2 "channel_id" channel fun r s => { r with channel := s }]

structure ChannelRecord where
  state : Int32 := 0
  order : Int32 := 0
  counterparty : Option EndpointRecord := none
  hops : List String := []
  version : String := ""

def ChannelRecord.layout : Layout ChannelRecord where
  name := "ChannelRecord"
  blank := {}
  fields := [
    Field.int32 1 "state" state fun r n => { r with state := n },
    Field.int32 2 "ordering" order fun r n => { r with order := n },
    Field.message 3 "counterparty" EndpointRecord.layout counterparty
      fun r c => { r with counterparty := some c },
    Field.texts 4 "connection_hops" hops fun r l => { r with hops := l },
    Field.text 5 "version" version fun r s => { r with version := s }]

structure ChannelResponse where
  channel : Option ChannelRecord := none

def ChannelResponse.layout : Layout ChannelResponse where
  name := "QueryChannelResponse"
  blank := {}
  fields := [
    Field.message 1 "channel" ChannelRecord.layout channel fun r c => { r with channel := some c }]

structure ConnectionRequest where
  connection : String := ""

def ConnectionRequest.layout : Layout ConnectionRequest where
  name := "QueryConnectionRequest"
  blank := {}
  fields := [Field.text 1 "connection_id" connection fun r s => { r with connection := s }]

structure ConnectionCounterpartyRecord where
  client : String := ""
  connection : String := ""

def ConnectionCounterpartyRecord.layout : Layout ConnectionCounterpartyRecord where
  name := "ConnectionCounterpartyRecord"
  blank := {}
  fields := [
    Field.text 1 "client_id" client fun r s => { r with client := s },
    Field.text 2 "connection_id" connection fun r s => { r with connection := s }]

/-- Versions and the commitment's key space are not read. -/
structure ConnectionRecord where
  client : String := ""
  state : Int32 := 0
  counterparty : Option ConnectionCounterpartyRecord := none
  delayPeriod : UInt64 := 0

def ConnectionRecord.layout : Layout ConnectionRecord where
  name := "ConnectionRecord"
  blank := {}
  fields := [
    Field.text 1 "client_id" client fun r s => { r with client := s },
    Field.int32 3 "state" state fun r n => { r with state := n },
    Field.message 4 "counterparty" ConnectionCounterpartyRecord.layout counterparty
      fun r c => { r with counterparty := some c },
    Field.uint64 5 "delay_period" delayPeriod fun r n => { r with delayPeriod := n }]

structure ConnectionResponse where
  connection : Option ConnectionRecord := none

def ConnectionResponse.layout : Layout ConnectionResponse where
  name := "QueryConnectionResponse"
  blank := {}
  fields := [
    Field.message 1 "connection" ConnectionRecord.layout connection
      fun r c => { r with connection := some c }]

structure ClientRequest where
  client : String := ""

def ClientRequest.layout : Layout ClientRequest where
  name := "QueryClientStateRequest"
  blank := {}
  fields := [Field.text 1 "client_id" client fun r s => { r with client := s }]

/-- A message of any type, named by a URL. -/
structure AnyRecord where
  typeUrl : String := ""
  value : Bytes := []

def AnyRecord.layout : Layout AnyRecord where
  name := "AnyRecord"
  blank := {}
  fields := [
    Field.text 1 "type_url" typeUrl fun r s => { r with typeUrl := s },
    Field.bytes 2 "value" value fun r b => { r with value := b }]

structure ClientResponse where
  client : Option AnyRecord := none

def ClientResponse.layout : Layout ClientResponse where
  name := "QueryClientStateResponse"
  blank := {}
  fields := [
    Field.message 1 "client_state" AnyRecord.layout client fun r c => { r with client := some c }]

structure HeightRecord where
  revision : UInt64 := 0
  height : UInt64 := 0

def HeightRecord.layout : Layout HeightRecord where
  name := "HeightRecord"
  blank := {}
  fields := [
    Field.uint64 1 "revision_number" revision fun r n => { r with revision := n },
    Field.uint64 2 "revision_height" height fun r n => { r with height := n }]

/-- Two of the fields of a Tendermint client. -/
structure TendermintRecord where
  chain : String := ""
  latestHeight : Option HeightRecord := none

def TendermintRecord.layout : Layout TendermintRecord where
  name := "TendermintClientRecord"
  blank := {}
  fields := [
    Field.text 1 "chain_id" chain fun r s => { r with chain := s },
    Field.message 7 "latest_height" HeightRecord.layout latestHeight
      fun r h => { r with latestHeight := some h }]

structure SolomachineRecord where
  sequence : UInt64 := 0

def SolomachineRecord.layout : Layout SolomachineRecord where
  name := "SolomachineClientRecord"
  blank := {}
  fields := [Field.uint64 1 "sequence" sequence fun r n => { r with sequence := n }]

inductive ClientFault where
  | malformed (why : Wire.Fault)
  | unknownType (url : String)
  deriving DecidableEq

def ClientFault.message : ClientFault → String
  | .malformed why => why.message
  | .unknownType url => s!"unknown client state type {url}"

def tendermintUrl : String := "/ibc.lightclients.tendermint.v1.ClientState"

def solomachineUrl : String := "/ibc.lightclients.solomachine.v3.ClientState"

def localhostUrl : String := "/ibc.lightclients.localhost.v2.ClientState"

def clientOfRecord (any : AnyRecord) : Except ClientFault ClientState :=
  if any.typeUrl = tendermintUrl then do
    let r ← (TendermintRecord.layout.read any.value).mapError .malformed
    return .tendermint { chain := r.chain, latestHeight := (r.latestHeight.map (·.height)).getD 0 }
  else if any.typeUrl = solomachineUrl then do
    let r ← (SolomachineRecord.layout.read any.value).mapError .malformed
    return .solomachine r.sequence
  else if any.typeUrl = localhostUrl then return .localhost
  else .error (.unknownType any.typeUrl)

def stateOfCode? (code : Int32) : Option ChannelState :=
  if code = 1 then some .init
  else if code = 2 then some .tryOpen
  else if code = 3 then some .opened
  else if code = 4 then some .closed
  else none

def orderOfCode? (code : Int32) : Option Order :=
  if code = 1 then some .unordered else if code = 2 then some .ordered else none

def channelOfRecord? (r : ChannelRecord) : Option ChannelEnd := do
  let counterparty := r.counterparty.getD {}
  some {
    state := ← stateOfCode? r.state
    order := ← orderOfCode? r.order
    counterparty := { port := counterparty.port, channel := counterparty.channel }
    hops := r.hops
    version := r.version }

def connectionOfRecord (r : ConnectionRecord) : ConnectionEnd :=
  let counterparty := r.counterparty.getD {}
  { client := r.client
    counterparty := { client := counterparty.client, connection := counterparty.connection } }

/-- Answers a request with a message, or not at all. -/
abbrev Host := Request → Option Bytes

def ask (host : Host) (path : String) (request : Bytes) (response : Layout α) :
    Lookup (Option α) where
  value := host ⟨path, request⟩ >>= fun b => (response.read b).toOption
  requests := [⟨path, request⟩]

def channelPath : String := "/ibc.core.channel.v1.Query/Channel"

def connectionPath : String := "/ibc.core.connection.v1.Query/Connection"

def clientPath : String := "/ibc.core.client.v1.Query/ClientState"

def directory (host : Host) : Directory where
  channel e := do
    let request := ChannelRequest.layout.write { port := e.port, channel := e.channel }
    let answer ← ask host channelPath request ChannelResponse.layout
    return do channelOfRecord? (← (← answer).channel)
  connection id := do
    let request := ConnectionRequest.layout.write { connection := id }
    let answer ← ask host connectionPath request ConnectionResponse.layout
    return do some (connectionOfRecord (← (← answer).connection))
  client id := do
    let request := ClientRequest.layout.write { client := id }
    let answer ← ask host clientPath request ClientResponse.layout
    return do (clientOfRecord (← (← answer).client)).toOption

end Custody.Ibc.Remote
