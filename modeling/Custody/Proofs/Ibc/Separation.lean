import Mathlib.Control.Monad.Basic
import Custody.Proofs.Address.Derived
import Custody.Proofs.Bank.Balances
import Custody.Proofs.Ibc.Run

/-!
# Releases keep to their channel

A release takes from the escrow account of the channel that its packet came over, and from no other.
So funds of another channel, or of a module, are out of its reach as long as no digests collide.
-/

namespace Custody.Ibc

open Address (escrowName escrowPreimage ofChannelEscrow ofModule)
open Hash.Sha256 (Collide)
open Text (Lower)

/-- The account that holds the funds sent out over a channel. -/
def Endpoint.escrow (hrp : String) (e : Endpoint) : Except Bech32.Fault Address :=
  ofChannelEscrow hrp e.port e.channel

def Endpoint.preimage (e : Endpoint) : Bytes := escrowPreimage e.port e.channel

/-! ## Whose account an address is -/

section Accounts

variable {hrp : String} {account : Address}

theorem Endpoint.eq_or_collide (hlower : Lower hrp.toList) {e e' : Endpoint}
    (hport : '/' ∉ e.port.toList) (hport' : '/' ∉ e'.port.toList)
    (h : e.escrow hrp = .ok account) (h' : e'.escrow hrp = .ok account) :
    e = e' ∨ Collide e.preimage e'.preimage := by
  obtain ⟨port, channel⟩ := e
  obtain ⟨port', channel'⟩ := e'
  rcases Address.eq_or_collide_of_ofDigest hlower h h' with hsame | hcollide
  · obtain ⟨rfl, rfl⟩ := (Address.escrowPreimage_inj hport hport').1 hsame
    exact .inl rfl
  · exact .inr hcollide

theorem Endpoint.eq_name_or_collide (hlower : Lower hrp.toList) {e : Endpoint} {name : String}
    (h : ofModule hrp name = .ok account) (h' : e.escrow hrp = .ok account) :
    name = escrowName e.port e.channel ∨ Collide (Bytes.ofString name) e.preimage := by
  rcases Address.eq_or_collide_of_ofDigest hlower h h' with hsame | hcollide
  · rw [← Address.ofString_escrowName, Bytes.ofString_inj] at hsame
    exact .inl hsame
  · exact .inr hcollide

end Accounts

/-! ## What callbacks take away -/

section Releases

variable {ω : Type} {cfg : Config} {app : Application Balances ω} {account : Address}

/-- The application takes nothing from the account. -/
def LeavesFunds (account : Address) (app : Application Balances ω) : Prop :=
  ∀ c w denom, (w.vault.bank.balance account denom).val ≤
    (((app c).after w).vault.bank.balance account denom).val

theorem Bystander.leavesFunds (happ : Bystander app) (account : Address) :
    LeavesFunds account app := by
  intro c w denom
  rw [happ.bank]

/-- The packet is among those that arrive. -/
def Arrives (p : Packet) (calls : List (List Layer × Callback)) : Prop :=
  ∃ layers relayer, (layers, .receive p relayer) ∈ calls

/-- The world after all callbacks, each of them through its own layers. -/
def delivered (cfg : Config) (app : Application Balances ω) (calls : List (List Layer × Callback))
    (w : World Balances ω) : World Balances ω :=
  run cfg app (calls.map fun call => .callback call.1 call.2) w

/-- An account loses nothing in a callback, unless it is the escrow account of the channel that a
packet has come over. -/
theorem balance_le_callback (happ : LeavesFunds account app)
    (layers : List Layer) {c : Callback}
    (hother : ∀ p relayer, c = .receive p relayer → p.destination.escrow cfg.hrp ≠ .ok account)
    (denom : String) (least : Nat) : Operation.Keeps
      (fun w : World Balances ω => least ≤ (w.vault.bank.balance account denom).val)
      (stack cfg layers app c) := by
  apply keeps_stack
  · refine ⟨fun w requests hw => hw, fun w s hsame hw => hw, ?_⟩
    intro w p relayer escrow receiver coin bank hc hescrow hsend hw
    have haccount : account ≠ escrow := by
      rintro rfl
      exact hother p relayer hc hescrow
    exact Nat.le_trans hw (Balances.balance_le_of_send hsend haccount denom)
  · intro w hw
    exact Nat.le_trans hw (happ c w denom)

theorem balance_le_delivered (happ : LeavesFunds account app)
    {calls : List (List Layer × Callback)}
    (hother : ∀ p, Arrives p calls → p.destination.escrow cfg.hrp ≠ .ok account)
    (w : World Balances ω) (denom : String) :
    (w.vault.bank.balance account denom).val ≤
      ((delivered cfg app calls w).vault.bank.balance account denom).val := by
  refine run_keeps (P := fun w' : World Balances ω =>
    (w.vault.bank.balance account denom).val ≤ (w'.vault.bank.balance account denom).val) ?_
    (Nat.le_refl _)
  intro step hstep w' hw'
  obtain ⟨⟨layers, c⟩, hcall, rfl⟩ := List.mem_map.1 hstep
  refine balance_le_callback happ layers ?_ denom _ w' hw'
  rintro p relayer rfl
  exact hother p ⟨layers, relayer, hcall⟩

/-- Where an account has less after some callbacks, a packet has come over its channel. -/
theorem arrives_of_balance_lt (happ : LeavesFunds account app)
    {calls : List (List Layer × Callback)} {w : World Balances ω} {denom : String}
    (hless : ((delivered cfg app calls w).vault.bank.balance account denom).val <
      (w.vault.bank.balance account denom).val) :
    ∃ p, Arrives p calls ∧ p.destination.escrow cfg.hrp = .ok account := by
  by_contra hnone
  rw [not_exists] at hnone
  have hkept := balance_le_delivered happ
    (fun p harrives hescrow => hnone p ⟨harrives, hescrow⟩) w denom
  omega

end Releases

/-- Under a prefix without upper-case letters, and up to collisions of digests: different channels
have different escrow accounts, a module has that of a channel only if it is named by the very text
that is hashed for it, and callbacks that take something from the escrow account of a channel, or
from the account of a module, bring a packet over that channel, or over the one that the module is
named for. -/
theorem derived_accounts_separate {cfg : Config} (hlower : ∀ c ∈ cfg.hrp.toList, ¬ c.isUpper) :
    (∀ (e e' : Endpoint) (account : Address), '/' ∉ e.port.toList → '/' ∉ e'.port.toList →
      e.escrow cfg.hrp = .ok account → e'.escrow cfg.hrp = .ok account →
        e = e' ∨ Collide e.preimage e'.preimage) ∧
    (∀ (name : String) (e : Endpoint) (account : Address), ofModule cfg.hrp name = .ok account →
      e.escrow cfg.hrp = .ok account →
        name = escrowName e.port e.channel ∨ Collide (Bytes.ofString name) e.preimage) ∧
    ∀ (ω : Type) (app : Application Balances ω) (account : Address), LeavesFunds account app →
      ∀ (calls : List (List Layer × Callback)) (w : World Balances ω) (denom : String),
        ((delivered cfg app calls w).vault.bank.balance account denom).val <
          (w.vault.bank.balance account denom).val →
        ∃ p, Arrives p calls ∧
          (∀ e : Endpoint, '/' ∉ e.port.toList → '/' ∉ p.destination.port.toList →
            e.escrow cfg.hrp = .ok account →
              e = p.destination ∨ Collide e.preimage p.destination.preimage) ∧
          ∀ name, ofModule cfg.hrp name = .ok account →
            name = escrowName p.destination.port p.destination.channel ∨
              Collide (Bytes.ofString name) p.destination.preimage := by
  refine ⟨fun e e' account => Endpoint.eq_or_collide hlower,
    fun name e account => Endpoint.eq_name_or_collide hlower, ?_⟩
  intro ω app account happ calls w denom hless
  obtain ⟨p, harrives, hescrow⟩ := arrives_of_balance_lt happ hless
  refine ⟨p, harrives, ?_, ?_⟩
  · intro e hport hport' he
    exact Endpoint.eq_or_collide hlower hport hport' he hescrow
  · intro name hname
    exact Endpoint.eq_name_or_collide hlower hname hescrow

/-- The escrow account of a channel pays for a packet over that channel. -/
theorem derived_accounts_separate_one_release :
    let e : Endpoint := ⟨"transfer", "channel-0"⟩
    let account := "maany1a53udazy8ayufvy0s434pfwjcedzqv34ndtvl7"
    let p : Packet := ⟨⟨"transfer", "channel-7"⟩, e, 1, Json.encode (⟨"umaany", "3", "dex1sender",
      "maany1sxmr0k8u6trd5c6eu6trzyapzux7090y5aayfr", ""⟩ : TransferData)⟩
    let w : World Balances (List Callback) :=
      ⟨⟨ChannelSet.insert .empty "channel-0",
        (Balances.empty "maany").set account ⟨"umaany", ⟨5, by decide⟩⟩⟩, [], []⟩
    let calls : List (List Layer × Callback) :=
      [([.transfer ({} : Registry).directory], .receive p "relayer")]
    (∀ c ∈ ({} : Config).hrp.toList, ¬ c.isUpper) ∧
      (((delivered {} (recorder false) calls w).vault.bank.balance account "umaany").val = 2 ∧
        (w.vault.bank.balance account "umaany").val = 5) ∧
      ∃ p, Arrives p calls ∧ ('/' ∉ p.destination.port.toList →
        e = p.destination ∨ Collide e.preimage p.destination.preimage) := by
  intro e account p w calls
  have hlower : ∀ c ∈ ({} : Config).hrp.toList, ¬ c.isUpper := by simp
  have hafter : ((delivered {} (recorder false) calls w).vault.bank.balance account "umaany").val =
      2 := by decide +kernel
  have hbefore : (w.vault.bank.balance account "umaany").val = 5 := by decide +kernel
  have hescrow : e.escrow ({} : Config).hrp = .ok account := by decide +kernel
  obtain ⟨q, harrives, hchannels, -⟩ := (derived_accounts_separate hlower).2.2 _ _ account
    ((bystander_recorder false).leavesFunds account) calls w "umaany" (by omega)
  exact ⟨hlower, ⟨hafter, hbefore⟩, q, harrives,
    fun hport => hchannels e (by decide) hport hescrow⟩

end Custody.Ibc
