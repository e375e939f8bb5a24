import Custody.Ibc.Application
import Custody.Ledger.AccountRegistry

/-!
# The account layer

When a channel of the interchain-account host has opened, the account registered for it becomes
the one authorized for the chain at its other end.
-/

namespace Custody.Ibc.Account

variable {β ω : Type}

/-- The accounts on this host, by connection and controller port. -/
abbrev Host := String → String → Option Address

/-- Authorizes the account of a channel of the host port, if there is one. -/
def register (cfg : Config) (d : Directory) (host : Host) (e : Endpoint) :
    Operation (World β ω) Unit := do
  if e.port = cfg.accountHostPort then
    match ← World.consult (d.resolve e) with
    | .error _ => return ()
    | .ok identity =>
      match host identity.connection identity.counterpartyPort with
      | none => return ()
      | some account =>
        if account ≠ "" then
          World.onVault (Vault.onStore (AccountRegistry.set identity.chain account))

/-- The layer around an application. -/
def layer (cfg : Config) (d : Directory) (host : Host) (app : Application β ω) : Application β ω :=
  fun c => do
    if let some e := c.opened? then register cfg d host e
    app c

end Custody.Ibc.Account
