import Custody.Ibc.Channel

/-!
# Handshake messages

The steps by which channels open and close.
-/

namespace Custody.Ibc

structure OpenInit where
  order : Order
  hops : List String
  self : Endpoint
  counterparty : Endpoint
  version : String
  deriving DecidableEq

instance : JsonForm OpenInit where
  toJson m := .obj [
    ("order", toJson m.order),
    ("connection_hops", toJson m.hops),
    ("port_id", toJson m.self.port),
    ("channel_id", toJson m.self.channel),
    ("counterparty", toJson m.counterparty),
    ("version", toJson m.version)]
  ofJson? j := do
    let m ← j.record? ["order", "connection_hops", "port_id", "channel_id", "counterparty",
      "version"]
    some {
      order := ← Json.member? m "order"
      hops := ← Json.member? m "connection_hops"
      self := { port := ← Json.member? m "port_id", channel := ← Json.member? m "channel_id" }
      counterparty := ← Json.member? m "counterparty"
      version := ← Json.member? m "version" }

structure OpenTry where
  order : Order
  hops : List String
  self : Endpoint
  counterparty : Endpoint
  counterpartyVersion : String
  deriving DecidableEq

instance : JsonForm OpenTry where
  toJson m := .obj [
    ("order", toJson m.order),
    ("connection_hops", toJson m.hops),
    ("port_id", toJson m.self.port),
    ("channel_id", toJson m.self.channel),
    ("counterparty", toJson m.counterparty),
    ("counterparty_version", toJson m.counterpartyVersion)]
  ofJson? j := do
    let m ← j.record? ["order", "connection_hops", "port_id", "channel_id", "counterparty",
      "counterparty_version"]
    some {
      order := ← Json.member? m "order"
      hops := ← Json.member? m "connection_hops"
      self := { port := ← Json.member? m "port_id", channel := ← Json.member? m "channel_id" }
      counterparty := ← Json.member? m "counterparty"
      counterpartyVersion := ← Json.member? m "counterparty_version" }

structure OpenAck where
  self : Endpoint
  counterpartyChannel : String
  counterpartyVersion : String
  deriving DecidableEq

instance : JsonForm OpenAck where
  toJson m := .obj [
    ("port_id", toJson m.self.port),
    ("channel_id", toJson m.self.channel),
    ("counterparty_channel_id", toJson m.counterpartyChannel),
    ("counterparty_version", toJson m.counterpartyVersion)]
  ofJson? j := do
    let m ← j.record? ["port_id", "channel_id", "counterparty_channel_id", "counterparty_version"]
    some {
      self := { port := ← Json.member? m "port_id", channel := ← Json.member? m "channel_id" }
      counterpartyChannel := ← Json.member? m "counterparty_channel_id"
      counterpartyVersion := ← Json.member? m "counterparty_version" }

end Custody.Ibc
