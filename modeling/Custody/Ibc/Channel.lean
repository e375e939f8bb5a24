import Custody.Json.Form

/-!
# Channels, connections and clients

The ends of channels and connections as this chain keeps them, and the light clients behind them.
-/

namespace Custody.Ibc

inductive Order where
  | unordered
  | ordered
  deriving DecidableEq, Repr

instance : JsonForm Order where
  toJson
    | .unordered => .str "ORDER_UNORDERED"
    | .ordered => .str "ORDER_ORDERED"
  ofJson?
    | .str "ORDER_UNORDERED" => some .unordered
    | .str "ORDER_ORDERED" => some .ordered
    | _ => none

/-- A port and a channel of it. -/
structure Endpoint where
  port : String
  channel : String
  deriving DecidableEq, Inhabited

instance : JsonForm Endpoint where
  toJson e := .obj [("port_id", toJson e.port), ("channel_id", toJson e.channel)]
  ofJson? j := do
    let m ← j.record? ["port_id", "channel_id"]
    some {
      port := ← Json.member? m "port_id"
      channel := ← Json.member? m "channel_id" }

inductive ChannelState where
  | init
  | tryOpen
  | opened
  | closed
  deriving DecidableEq, Repr

instance : JsonForm ChannelState where
  toJson
    | .init => .str "init"
    | .tryOpen => .str "try_open"
    | .opened => .str "open"
    | .closed => .str "closed"
  ofJson?
    | .str "init" => some .init
    | .str "try_open" => some .tryOpen
    | .str "open" => some .opened
    | .str "closed" => some .closed
    | _ => none

structure ChannelEnd where
  state : ChannelState
  order : Order
  counterparty : Endpoint
  /-- The connections the channel runs over, nearest first. -/
  hops : List String
  version : String
  deriving DecidableEq

instance : JsonForm ChannelEnd where
  toJson c := .obj [
    ("state", toJson c.state),
    ("ordering", toJson c.order),
    ("counterparty", toJson c.counterparty),
    ("connection_hops", toJson c.hops),
    ("version", toJson c.version)]
  ofJson? j := do
    let m ← j.record? ["state", "ordering", "counterparty", "connection_hops", "version"]
    some {
      state := ← Json.member? m "state"
      order := ← Json.member? m "ordering"
      counterparty := ← Json.member? m "counterparty"
      hops := ← Json.member? m "connection_hops"
      version := ← Json.member? m "version" }

structure ConnectionCounterparty where
  client : String
  connection : String
  deriving DecidableEq, Inhabited

instance : JsonForm ConnectionCounterparty where
  toJson c := .obj [("client_id", toJson c.client), ("connection_id", toJson c.connection)]
  ofJson? j := do
    let m ← j.record? ["client_id", "connection_id"]
    some {
      client := ← Json.member? m "client_id"
      connection := ← Json.member? m "connection_id" }

structure ConnectionEnd where
  /-- The client on this chain that follows the other one. -/
  client : String
  counterparty : ConnectionCounterparty
  deriving DecidableEq

instance : JsonForm ConnectionEnd where
  toJson c := .obj [("client_id", toJson c.client), ("counterparty", toJson c.counterparty)]
  ofJson? j := do
    let m ← j.record? ["client_id", "counterparty"]
    some {
      client := ← Json.member? m "client_id"
      counterparty := ← Json.member? m "counterparty" }

structure TendermintClient where
  chain : String
  latestHeight : UInt64
  deriving DecidableEq

instance : JsonForm TendermintClient where
  toJson c := .obj [("chain_id", toJson c.chain), ("latest_height", toJson c.latestHeight)]
  ofJson? j := do
    let m ← j.record? ["chain_id", "latest_height"]
    some {
      chain := ← Json.member? m "chain_id"
      latestHeight := ← Json.member? m "latest_height" }

inductive ClientState where
  | tendermint (client : TendermintClient)
  | solomachine (sequence : UInt64)
  | localhost
  deriving DecidableEq

def ClientState.kind : ClientState → String
  | .tendermint _ => "07-tendermint"
  | .solomachine _ => "06-solomachine"
  | .localhost => "09-localhost"

instance : JsonForm ClientState where
  toJson
    | .tendermint client => .variant "tendermint" (toJson client)
    | .solomachine sequence => .variant "solomachine" (.obj [("sequence", toJson sequence)])
    | .localhost => .variant "localhost" (.obj [])
  ofJson? j := do
    match ← j.variant? with
    | ("tendermint", some content) => (ofJson? content).map .tendermint
    | ("solomachine", some content) =>
      let m ← content.record? ["sequence"]
      some (.solomachine (← Json.member? m "sequence"))
    | ("localhost", some content) => (content.record? []).map fun _ => .localhost
    | _ => none

end Custody.Ibc
