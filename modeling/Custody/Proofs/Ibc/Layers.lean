import Custody.Ibc.AccountLayer
import Custody.Ibc.TransferLayer
import Custody.Proofs.Ledger.Records

/-!
# What layers do to a world

A layer consults the host, writes outside the ledger, and pays packets out of the escrow account of
the channel that they came over. A property that survives this, and the application, survives any
stack of layers.
-/

namespace Custody.Ibc

open Operation (Keeps)

variable {β ω : Type}

/-! ## Stacks -/

/-- A layer, with what it looks things up in. -/
inductive Layer where
  | transfer (directory : Directory)
  | account (directory : Directory) (host : Account.Host)

/-- The application with the layer around it. -/
def Layer.around [Custodian β] (cfg : Config) (app : Application β ω) : Layer → Application β ω
  | .transfer directory => Transfer.layer cfg directory app
  | .account directory host => Account.layer cfg directory host app

/-- The application inside all layers, the first of them outermost. -/
def stack [Custodian β] (cfg : Config) (layers : List Layer) (app : Application β ω) :
    Application β ω :=
  layers.foldr (fun layer inner => layer.around cfg inner) app

/-! ## Properties that layers keep -/

/-- The property survives payments out of the escrow account of the channel of a packet. -/
def SurvivesRelease [Custodian β] (cfg : Config) (c : Callback) (P : World β ω → Prop) : Prop :=
  ∀ w p relayer escrow receiver coin bank, c = .receive p relayer →
    Address.ofChannelEscrow cfg.hrp p.destination.port p.destination.channel = .ok escrow →
    Custodian.send w.vault.bank escrow receiver coin = .ok bank → P w →
    P { w with vault := { w.vault with bank } }

/-- The property survives whatever a layer does of its own on a callback. -/
structure Stable [Custodian β] (cfg : Config) (c : Callback) (P : World β ω → Prop) : Prop where
  consulted : ∀ w requests, P w → P { w with requests }
  written : ∀ w s, Ledger.Same s w.vault.store → P w →
    P { w with vault := { w.vault with store := s } }
  released : SurvivesRelease cfg c P

section Keeping

variable [Custodian β] {cfg : Config} {c : Callback} {P : World β ω → Prop}

theorem Stable.consult (h : Stable cfg c P) (x : ExceptT ε Lookup α) :
    Keeps P (World.consult x) := by
  apply Keeps.bind
  · apply Keeps.modify
    intro w hw
    exact h.consulted w _ hw
  · exact fun _ => Keeps.pure _

theorem Stable.write (h : Stable cfg c P) {x : Operation Store Unit}
    (hx : ∀ s, Ledger.Same (x.after s) s) :
    Keeps P (World.onVault (Vault.onStore x) : Operation (World β ω) Unit) := by
  intro w hw
  unfold World.onVault Vault.onStore
  rw [Operation.after_within, Operation.after_within]
  exact h.written w _ (hx w.vault.store) hw

theorem keeps_track (h : Stable cfg c P) (d : Directory) (e : Endpoint) :
    Keeps P (Transfer.track cfg d e) := by
  unfold Transfer.track
  split
  · apply Keeps.bind (h.consult _)
    intro found
    cases found with
    | error why => exact Keeps.pure ()
    | ok chain =>
        simp only
        split
        · apply h.write
          intro s
          exact Ledger.Same.insert (Store.Key.not_ofLedger_channel e.channel) s [1]
        · exact Keeps.pure ()
  · exact Keeps.pure ()

theorem keeps_untrack (h : Stable cfg c P) (e : Endpoint) : Keeps P (Transfer.untrack cfg e) := by
  unfold Transfer.untrack
  split
  · apply h.write
    intro s
    exact Ledger.Same.erase (Store.Key.not_ofLedger_channel e.channel) s
  · exact Keeps.pure ()

theorem same_set (chain : String) (account : Address) (s : Store) :
    Ledger.Same ((AccountRegistry.set chain account).after s) s := by
  unfold AccountRegistry.set Store.save
  split
  · exact Ledger.Same.refl s
  · exact Ledger.Same.insert (Store.Key.not_ofLedger_account chain) s _

theorem keeps_register (h : Stable cfg c P) (d : Directory) (host : Account.Host) (e : Endpoint) :
    Keeps P (Account.register cfg d host e) := by
  unfold Account.register
  split
  · apply Keeps.bind (h.consult _)
    intro found
    cases found with
    | error why => exact Keeps.pure ()
    | ok identity =>
        simp only
        split
        · exact Keeps.pure ()
        · split
          · exact h.write (same_set identity.chain _)
          · exact Keeps.pure ()
  · exact Keeps.pure ()

theorem keeps_release {p : Packet} {relayer : Address}
    (h : SurvivesRelease cfg (.receive p relayer) P) (data : TransferData) :
    Keeps P (Transfer.release cfg p data) := by
  unfold Transfer.release
  split
  · exact Keeps.pure _
  · rename_i receiver hreceiver
    split
    · exact Keeps.pure _
    · rename_i amount hamount
      split
      · exact Keeps.pure _
      · rename_i escrow hescrow
        apply Keeps.get_bind
        intro w hw
        cases hsend : Custodian.send w.vault.bank escrow receiver ⟨cfg.baseDenom, amount⟩ with
        | ok bank => exact h w p relayer escrow receiver _ bank rfl hescrow hsend hw
        | error e => cases e <;> exact hw

theorem keeps_receive {p : Packet} {relayer : Address}
    (h : SurvivesRelease cfg (.receive p relayer) P) {app : Application β ω}
    (happ : Keeps P (app (.receive p relayer))) :
    Keeps P (Transfer.receive cfg app p relayer) := by
  unfold Transfer.receive
  apply Keeps.get_bind
  intro w hw
  split
  · split
    · exact hw
    · rename_i data hdata
      split
      · have hrelease := Keeps.bind (keeps_release h data) fun a =>
          Keeps.pure (P := P) (Reply.acknowledged a)
        exact hrelease w hw
      · exact happ w hw
  · exact happ w hw

theorem keeps_forward (h : SurvivesRelease cfg c P) {app : Application β ω}
    (happ : Keeps P (app c)) : Keeps P (Transfer.forward cfg app c) := by
  cases c with
  | receive p relayer => exact keeps_receive h happ
  | _ => exact happ

theorem keeps_transferLayer (h : Stable cfg c P) (d : Directory) {app : Application β ω}
    (happ : Keeps P (app c)) : Keeps P (Transfer.layer cfg d app c) := by
  have hlast := keeps_forward h.released happ
  unfold Transfer.layer
  cases c.opened? with
  | none =>
      cases c.closed? with
      | none => exact hlast
      | some e => exact Keeps.bind (keeps_untrack h e) fun _ => hlast
  | some e =>
      apply Keeps.bind (keeps_track h d e)
      intro _
      cases c.closed? with
      | none => exact hlast
      | some e => exact Keeps.bind (keeps_untrack h e) fun _ => hlast

theorem keeps_accountLayer (h : Stable cfg c P) (d : Directory) (host : Account.Host)
    {app : Application β ω} (happ : Keeps P (app c)) :
    Keeps P (Account.layer cfg d host app c) := by
  unfold Account.layer
  cases c.opened? with
  | none => exact happ
  | some e => exact Keeps.bind (keeps_register h d host e) fun _ => happ

theorem keeps_stack (h : Stable cfg c P) (layers : List Layer) {app : Application β ω}
    (happ : Keeps P (app c)) : Keeps P (stack cfg layers app c) := by
  induction layers with
  | nil => exact happ
  | cons layer layers ih =>
      cases layer with
      | transfer d => exact keeps_transferLayer h d ih
      | account d host => exact keeps_accountLayer h d host ih

end Keeping

end Custody.Ibc
