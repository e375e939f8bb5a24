import Custody.Escrow.Lifecycle
import Custody.Ibc.Directory
import Custody.Ibc.Handshake
import Custody.Ibc.Packet

/-!
# Applications

An application answers the callbacks of channels and packets. Layers are put around it.
-/

namespace Custody.Ibc

inductive Callback where
  | openInit (m : OpenInit)
  | openTry (m : OpenTry)
  | openAck (m : OpenAck)
  | openConfirm (e : Endpoint)
  | closeInit (e : Endpoint)
  | closeConfirm (e : Endpoint)
  | receive (p : Packet) (relayer : Address)
  | acknowledge (p : Packet) (ack : Bytes) (relayer : Address)
  | timeout (p : Packet) (relayer : Address)
  deriving DecidableEq

namespace Callback

/-- The channel that has just become open. -/
def opened? : Callback → Option Endpoint
  | .openAck m => some m.self
  | .openConfirm e => some e
  | _ => none

/-- The channel that has just been closed. -/
def closed? : Callback → Option Endpoint
  | .closeInit e => some e
  | .closeConfirm e => some e
  | _ => none

def label : Callback → String
  | .openInit m => s!"open_init:{m.self.channel}"
  | .openTry m => s!"open_try:{m.self.channel}"
  | .openAck m => s!"open_ack:{m.self.channel}"
  | .openConfirm e => s!"open_confirm:{e.channel}"
  | .closeInit e => s!"close_init:{e.channel}"
  | .closeConfirm e => s!"close_confirm:{e.channel}"
  | .receive p _ => s!"recv:{p.sequence}"
  | .acknowledge p _ _ => s!"ack:{p.sequence}"
  | .timeout p _ => s!"timeout:{p.sequence}"

end Callback

inductive Reply where
  | version (v : String)
  | done
  | acknowledged (a : Acknowledgement)
  deriving DecidableEq

/-- The vault, the requests made to the host so far, and the application's own state. -/
structure World (β ω : Type) where
  vault : Vault β
  requests : List Request
  app : ω

namespace World

variable {β ω : Type}

def onVault (x : Operation (Vault β) α) : Operation (World β ω) α :=
  .within vault (fun w v => { w with vault := v }) x

/-- Looks something up and keeps count of the requests. -/
def consult (x : ExceptT ε Lookup α) : Operation (World β ω) (Except ε α) := do
  modify fun w => { w with requests := w.requests ++ x.run.requests }
  return x.run.value

end World

abbrev Application (β ω : Type) := Callback → Operation (World β ω) Reply

/-- Writes down every callback it sees. It agrees to all handshakes, or to none, and takes every
packet. -/
def recorder (refuses : Bool) : Application β (List Callback) := fun c => do
  modify fun w => { w with app := w.app ++ [c] }
  let agree (r : Reply) : Operation (World β (List Callback)) Reply :=
    if refuses then throw .handshakeRejected else return r
  match c with
  | .openInit m => agree (.version m.version)
  | .openTry m => agree (.version m.counterpartyVersion)
  | .openAck _ | .openConfirm _ | .closeInit _ | .closeConfirm _ => agree .done
  | .receive _ _ => return .acknowledged .success
  | .acknowledge _ _ _ | .timeout _ _ => return .done

end Custody.Ibc
