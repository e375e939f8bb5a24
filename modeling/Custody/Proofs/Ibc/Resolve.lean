import Custody.Ibc.Directory

/-!
# Who sits at the other end

What a directory says of a channel is read off four answers. Of the first connection it only uses
the client that the counterparty names; the client that this chain follows the other one with has no
part in it.
-/

namespace Custody.Ibc

/-- What comes of a look-up that must find something, and of what is done then. -/
theorem Lookup.value_require_bind {ε α α' : Type} (x : Lookup (Option α)) (fault : ε)
    (f : α → ExceptT ε Lookup α') :
    (x.require fault >>= f).run.value = x.value.elim (.error fault) fun a => (f a).run.value := by
  obtain ⟨found, requests⟩ := x
  cases found with
  | none => rfl
  | some a => rfl

namespace Directory

variable {d : Directory} {e : Endpoint} {identity : Identity}

/-- The way from a channel over its first connection to the client that the counterparty names
there, which is to be looked up on this chain. -/
inductive Leads (d : Directory) (e : Endpoint) : Identity → Prop
  | intro {channel : ChannelEnd} {hop : String} {connection : ConnectionEnd}
      {client : TendermintClient} (hchannel : (d.channel e).value = some channel)
      (hhop : channel.hops.head? = some hop)
      (hconnection : (d.connection hop).value = some connection)
      (hclient : (d.client connection.counterparty.client).value = some (.tendermint client)) :
      Leads d e ⟨client.chain, hop, channel.counterparty.port⟩

theorem value_resolve (d : Directory) (e : Endpoint) : (d.resolve e).run.value =
    match (d.channel e).value with
    | none => .error (.noChannel e)
    | some channel =>
      match channel.hops.head? with
      | none => .error (.noHop e.channel)
      | some hop =>
        match (d.connection hop).value with
        | none => .error (.noConnection hop)
        | some connection =>
          match (d.client connection.counterparty.client).value with
          | none => .error (.noClient connection.counterparty.client)
          | some (.tendermint client) => .ok ⟨client.chain, hop, channel.counterparty.port⟩
          | some other => .error (.otherClient connection.counterparty.client other.kind) := by
  unfold resolve
  rw [Lookup.value_require_bind]
  cases (d.channel e).value with
  | none => rfl
  | some channel =>
      simp only [Option.elim_some]
      cases channel.hops.head? with
      | none => rfl
      | some hop =>
          simp only [Lookup.value_require_bind]
          cases (d.connection hop).value with
          | none => rfl
          | some connection =>
              simp only [Option.elim_some]
              cases (d.client connection.counterparty.client).value with
              | none => rfl
              | some client => cases client <;> rfl

/-- Two directories that agree along the way resolve a channel alike, also where the way breaks off. -/
theorem value_resolve_congr {d' : Directory} (hchannel : (d.channel e).value = (d'.channel e).value)
    (hconnection : ∀ channel, (d'.channel e).value = some channel → ∀ hop ∈ channel.hops,
      (d.connection hop).value = (d'.connection hop).value)
    (hclient : ∀ hop connection, (d'.connection hop).value = some connection →
      (d.client connection.counterparty.client).value =
        (d'.client connection.counterparty.client).value) :
    (d.resolve e).run.value = (d'.resolve e).run.value := by
  rw [value_resolve, value_resolve, hchannel]
  cases hc : (d'.channel e).value with
  | none => rfl
  | some channel =>
      cases hh : channel.hops.head? with
      | none => simp only [hh]
      | some hop =>
          simp only [hh, hconnection channel hc hop (List.mem_of_head? hh)]
          cases hn : (d'.connection hop).value with
          | none => rfl
          | some connection => simp only [hclient hop connection hn]

theorem value_chainOf (d : Directory) (e : Endpoint) :
    (d.chainOf e).run.value = (d.resolve e).run.value.map (·.chain) := by
  unfold chainOf
  cases d.resolve e with
  | mk found requests =>
      cases found with
      | error why => rfl
      | ok identity => rfl

/-- A channel resolves to what the way leads to. -/
theorem resolve_eq_ok : (d.resolve e).run.value = .ok identity ↔ d.Leads e identity := by
  rw [value_resolve]
  constructor
  · intro h
    split at h
    · cases h
    · rename_i channel hchannel
      split at h
      · cases h
      · rename_i hop hhop
        split at h
        · cases h
        · rename_i connection hconnection
          split at h
          · cases h
          · rename_i client hclient
            cases h
            exact .intro hchannel hhop hconnection hclient
          · cases h
  · intro h
    cases h with
    | intro hchannel hhop hconnection hclient =>
        rw [hchannel]
        simp only [hhop, hconnection, hclient]

theorem chainOf_eq_ok {chain : String} :
    (d.chainOf e).run.value = .ok chain ↔
      ∃ identity, d.Leads e identity ∧ identity.chain = chain := by
  rw [value_chainOf]
  simp only [← resolve_eq_ok]
  cases (d.resolve e).run.value with
  | error why => simp [Except.map]
  | ok identity => simp [Except.map]

/-! ## The other client of a connection -/

/-- The same directory, but for the client of each connection on this side. -/
def withOwnClients (d : Directory) (own : String → String) : Directory where
  channel := d.channel
  connection id := {
    value := (d.connection id).value.map fun connection => { connection with client := own id }
    requests := (d.connection id).requests }
  client := d.client

theorem resolve_withOwnClients (own : String → String) (e : Endpoint) :
    (d.withOwnClients own).resolve e = d.resolve e := by
  unfold resolve
  congr 1
  funext channel
  cases channel.hops.head? with
  | none => rfl
  | some hop =>
      simp only [withOwnClients]
      cases d.connection hop with
      | mk found requests =>
          cases found with
          | none => rfl
          | some connection => rfl

end Directory

end Custody.Ibc
