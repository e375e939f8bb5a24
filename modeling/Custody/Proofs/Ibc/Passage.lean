import Custody.Proofs.Ibc.Layers
import Custody.Proofs.Ibc.Resolve

/-!
# What layers write down

A layer may note something in the store before it passes a callback on. It never fails at that, and
all it changes besides is the count of requests. So an application inside a stack sees each callback
as it was, in a world that differs in what the layers have noted.
-/

namespace Custody

namespace Ibc

variable {β ω : Type}

/-! ## One channel -/

namespace Transfer

open Operation

/-- The store once a channel has opened. -/
def admitted (cfg : Config) (d : Directory) (e : Endpoint) (s : Store) : Store :=
  if e.port = cfg.transferPort then
    match (d.chainOf e).run.value with
    | .error _ => s
    | .ok chain => if chain = cfg.trustedChain then ChannelSet.insert s e.channel else s
  else s

/-- The store once a channel has been closed. -/
def dismissed (cfg : Config) (e : Endpoint) (s : Store) : Store :=
  if e.port = cfg.transferPort then ChannelSet.erase s e.channel else s

theorem track_eq (cfg : Config) (d : Directory) (e : Endpoint) (w : World β ω) :
    ∃ requests, track cfg d e w =
      .ok () ⟨{ w.vault with store := admitted cfg d e w.vault.store }, requests, w.app⟩ := by
  unfold track admitted
  by_cases hport : e.port = cfg.transferPort
  · have hconsult : World.consult (d.chainOf e) w = .ok (d.chainOf e).run.value
        { w with requests := w.requests ++ (d.chainOf e).run.requests } := rfl
    rw [if_pos hport, if_pos hport, bind_ok hconsult]
    cases (d.chainOf e).run.value with
    | error why => exact ⟨_, rfl⟩
    | ok chain =>
        simp only
        split <;> exact ⟨_, rfl⟩
  · rw [if_neg hport, if_neg hport]
    exact ⟨w.requests, rfl⟩

theorem untrack_eq (cfg : Config) (e : Endpoint) (w : World β ω) :
    untrack cfg e w =
      .ok () { w with vault := { w.vault with store := dismissed cfg e w.vault.store } } := by
  unfold untrack dismissed
  split <;> rfl

end Transfer

namespace Account

open Operation

/-- The chain at the other end of a channel of the host port, with the account that the host has
for it. -/
def found? (cfg : Config) (d : Directory) (host : Host) (e : Endpoint) : Option (String × Address) :=
  if e.port = cfg.accountHostPort then
    match (d.resolve e).run.value with
    | .error _ => none
    | .ok identity =>
      match host identity.connection identity.counterpartyPort with
      | none => none
      | some account => if account = "" then none else some (identity.chain, account)
  else none

/-- An account is found if the way from the channel leads to its chain, and the host has one, which
is not empty, for the connection that the way takes and the port at the other end. -/
theorem found?_eq_some {cfg : Config} {d : Directory} {host : Host} {e : Endpoint} {chain : String}
    {account : Address} : found? cfg d host e = some (chain, account) ↔
      e.port = cfg.accountHostPort ∧ ∃ hop port, d.Leads e ⟨chain, hop, port⟩ ∧
        host hop port = some account ∧ account ≠ "" := by
  constructor
  · intro h
    unfold found? at h
    split at h
    · rename_i hport
      split at h
      · cases h
      · rename_i identity hidentity
        split at h
        · cases h
        · rename_i found hhost
          split at h
          · cases h
          · rename_i hgiven
            cases h
            exact ⟨hport, _, _, Directory.resolve_eq_ok.1 hidentity, hhost, hgiven⟩
    · cases h
  · rintro ⟨hport, hop, port, hleads, hhost, hgiven⟩
    unfold found?
    rw [if_pos hport, Directory.resolve_eq_ok.2 hleads]
    simp only [hhost, if_neg hgiven]

/-- The store once a channel has opened. -/
def authorized (cfg : Config) (d : Directory) (host : Host) (e : Endpoint) (s : Store) : Store :=
  match found? cfg d host e with
  | none => s
  | some (chain, account) => s.insert (Store.Key.account chain) (Bytes.ofString account)

theorem set_run (chain : String) {account : Address} (haccount : account ≠ "") (s : Store) :
    AccountRegistry.set chain account s =
      .ok () (s.insert (Store.Key.account chain) (Bytes.ofString account)) := by
  have hvalue : Bytes.ofString account ≠ [] := fun h => haccount (Bytes.ofString_injective h)
  unfold AccountRegistry.set Store.save
  rw [if_neg hvalue]
  rfl

theorem register_eq (cfg : Config) (d : Directory) (host : Host) (e : Endpoint) (w : World β ω) :
    ∃ requests, register cfg d host e w =
      .ok () ⟨{ w.vault with store := authorized cfg d host e w.vault.store }, requests, w.app⟩ := by
  unfold register authorized found?
  by_cases hport : e.port = cfg.accountHostPort
  · have hconsult : World.consult (d.resolve e) w = .ok (d.resolve e).run.value
        { w with requests := w.requests ++ (d.resolve e).run.requests } := rfl
    rw [if_pos hport, if_pos hport, bind_ok hconsult]
    cases (d.resolve e).run.value with
    | error why => exact ⟨_, rfl⟩
    | ok identity =>
        cases hfound : host identity.connection identity.counterpartyPort with
        | none =>
            simp only [hfound]
            exact ⟨_, rfl⟩
        | some account =>
            simp only [hfound]
            by_cases haccount : account = ""
            · rw [if_neg (not_not_intro haccount), if_pos haccount]
              exact ⟨_, rfl⟩
            · rw [if_pos haccount, if_neg haccount]
              exact ⟨_, within_ok (within_ok (set_run identity.chain haccount _))⟩
  · rw [if_neg hport, if_neg hport]
    exact ⟨w.requests, rfl⟩

end Account

/-! ## One callback -/

/-- The world with another store, after some more requests. -/
def World.noting (w : World β ω) (s : Store) (requests : List Request) : World β ω :=
  ⟨{ w.vault with store := s }, requests, w.app⟩

/-- The store once a layer has noted what a callback says. -/
def Layer.noted (cfg : Config) (c : Callback) (s : Store) : Layer → Store
  | .transfer d =>
    match c.opened?, c.closed? with
    | some e, _ => Transfer.admitted cfg d e s
    | none, some e => Transfer.dismissed cfg e s
    | none, none => s
  | .account d host =>
    match c.opened? with
    | some e => Account.authorized cfg d host e s
    | none => s

/-- The store once all layers have, the outermost first. -/
def notedBy (cfg : Config) (c : Callback) (layers : List Layer) (s : Store) : Store :=
  layers.foldl (fun s layer => layer.noted cfg c s) s

/-- The callback brings a packet, which may end in a layer. -/
def Callback.arrives : Callback → Bool
  | .receive _ _ => true
  | _ => false

theorem Callback.eq_of_arrives {c : Callback} (h : c.arrives) :
    ∃ p relayer, c = .receive p relayer := by
  cases c with
  | receive p relayer => exact ⟨p, relayer, rfl⟩
  | _ => cases h

theorem Callback.closed?_of_opened? {c : Callback} {e : Endpoint} (h : c.opened? = some e) :
    c.closed? = none := by
  cases c <;> first | rfl | cases h

theorem notedBy_arrival (cfg : Config) (p : Packet) (relayer : Address) (layers : List Layer)
    (s : Store) : notedBy cfg (.receive p relayer) layers s = s := by
  induction layers with
  | nil => rfl
  | cons layer layers ih => cases layer <;> exact ih

theorem Account.layer_eq (cfg : Config) (d : Directory) (host : Account.Host)
    (app : Application β ω) (c : Callback) (w : World β ω) :
    ∃ requests, Account.layer cfg d host app c w =
      app c (w.noting ((Layer.account d host).noted cfg c w.vault.store) requests) := by
  unfold Account.layer Layer.noted
  cases c.opened? with
  | none => exact ⟨w.requests, rfl⟩
  | some e =>
      obtain ⟨requests, hregister⟩ := Account.register_eq cfg d host e w
      exact ⟨requests, Operation.bind_ok hregister⟩

section Passing

variable [Custodian β] {cfg : Config} {c : Callback} {app : Application β ω}

theorem Transfer.forward_eq (hpass : ¬ c.arrives) : Transfer.forward cfg app c = app c := by
  cases c with
  | receive p relayer => exact absurd rfl hpass
  | _ => rfl

theorem Transfer.layer_eq (cfg : Config) (d : Directory) (app : Application β ω) (c : Callback)
    (w : World β ω) : ∃ requests, Transfer.layer cfg d app c w =
      Transfer.forward cfg app c
        (w.noting ((Layer.transfer d).noted cfg c w.vault.store) requests) := by
  unfold Transfer.layer Layer.noted
  cases hopened : c.opened? with
  | none =>
      cases hclosed : c.closed? with
      | none => exact ⟨w.requests, rfl⟩
      | some e => exact ⟨w.requests, Operation.bind_ok (Transfer.untrack_eq cfg e w)⟩
  | some e =>
      -- A callback that opens a channel closes none, so nothing is taken out after it.
      obtain ⟨requests, htrack⟩ := Transfer.track_eq cfg d e w
      rw [Callback.closed?_of_opened? hopened]
      exact ⟨requests, Operation.bind_ok htrack⟩

theorem Layer.around_eq (cfg : Config) (layer : Layer) (app : Application β ω)
    (hpass : ¬ c.arrives) (w : World β ω) :
    ∃ requests, layer.around cfg app c w =
      app c (w.noting (layer.noted cfg c w.vault.store) requests) := by
  cases layer with
  | transfer d =>
      obtain ⟨requests, hlayer⟩ := Transfer.layer_eq cfg d app c w
      rw [Transfer.forward_eq hpass] at hlayer
      exact ⟨requests, hlayer⟩
  | account d host => exact Account.layer_eq cfg d host app c w

/-- A callback that brings no packet comes to the application through any stack. -/
theorem stack_eq (cfg : Config) (layers : List Layer) (app : Application β ω) (hpass : ¬ c.arrives)
    (w : World β ω) :
    ∃ requests, stack cfg layers app c w =
      app c (w.noting (notedBy cfg c layers w.vault.store) requests) := by
  induction layers generalizing w with
  | nil => exact ⟨w.requests, rfl⟩
  | cons layer layers ih =>
      obtain ⟨requests, hlayer⟩ := layer.around_eq cfg (stack cfg layers app) hpass w
      obtain ⟨requests', hrest⟩ := ih (w.noting (layer.noted cfg c w.vault.store) requests)
      exact ⟨requests', hlayer.trans hrest⟩

end Passing

end Ibc

end Custody
