import Custody.Proofs.Address.RoundTrip
import Custody.Proofs.Contract.AddressFault
import Custody.Proofs.Contract.History
import Custody.Proofs.Ibc.Receive
import Custody.Proofs.Json.Documents

/-!
# Address prefixes

Setting up asks of the address prefix only that it is not empty. Under one that addresses can be
written with and read back, nothing ever fails over an address that is in order. Under any other no
address is in order: nobody can call the contract, and no packet is paid.
-/

namespace Custody

/-! ## Prefixes -/

namespace Address

variable {hrp : String}

/-- Addresses can be written with the prefix, and read back: no letter of it is in upper case. -/
structure Usable (hrp : String) : Prop extends Bech32.Readable hrp where
  lower : Text.Lower hrp.toList

theorem Usable.ofDigest (h : Usable hrp) (preimage : Bytes) :
    ∃ a, ofDigest hrp preimage = .ok a ∧ validate hrp a = .ok a := by
  obtain ⟨a, ha⟩ := (encode_isOk_iff h.lower).2 ⟨h.pos, h.le, h.visible⟩
  exact ⟨a, ha, validate_of_ofDigest h.lower ha⟩

theorem usable_of_validate {a b : Address} (h : validate hrp a = .ok b) : Usable hrp := by
  cases hpayload : payload hrp a with
  | error why =>
      rw [validate, hpayload] at h
      cases h
  | ok raw =>
      obtain ⟨hlower, -, -, hencode⟩ := payload_eq_ok.1 hpayload
      exact ⟨(encode_eq_ok.1 hencode).1, hlower⟩

theorem validate_of_not_usable (h : ¬ Usable hrp) (a : Address) :
    ∃ why, validate hrp a = .error why := by
  cases hvalid : validate hrp a with
  | error why => exact ⟨why, rfl⟩
  | ok b => exact absurd (usable_of_validate hvalid) h

end Address

/-! ## Calls -/

theorem requireField_of_not_usable {hrp : String} (h : ¬ Address.Usable hrp)
    (address field : String) :
    ∃ why, requireField hrp address field = .error (.invalidAddress (some field) why) := by
  obtain ⟨why, hwhy⟩ := Address.validate_of_not_usable h address
  unfold requireField
  rw [hwhy]
  exact ⟨why, rfl⟩

namespace Contract

variable {cfg : Config}

/-- Before the sender of a command is looked at, it is made sure that nothing is attached. -/
theorem refused_after_funds (call : Call) {checked : Except Error Unit} {e : Error}
    (h : checked = .error e) (f : Unit → Operation Store Response) (s : Store) :
    ∃ e', (Operation.lift (requireNoFunds call) >>= fun _ => Operation.lift checked >>= f) s =
      .error e' s ∧ (e' = .notPayable ∨ e' = e) := by
  by_cases hfunds : call.funds = []
  · have hempty : requireNoFunds call = .ok () := if_pos hfunds
    rw [Operation.bind_ok (Operation.lift_ok hempty), Operation.bind_error (Operation.lift_error h)]
    exact ⟨e, rfl, .inr rfl⟩
  · have hattached : requireNoFunds call = .error .notPayable := if_neg hfunds
    rw [Operation.bind_error (Operation.lift_error hattached)]
    exact ⟨_, rfl, .inl rfl⟩

theorem execute_of_not_usable {s : Store} (hunusable : ¬ Address.Usable cfg.hrp)
    (hload : Settings.load s = .ok cfg) (env : Env) (call : Call) (command : Command) :
    ∃ e, execute env call command s = .error e s ∧
      (e = .notPayable ∨ ∃ why, e = .invalidAddress (some "sender") why) := by
  obtain ⟨why, hsender⟩ := requireField_of_not_usable hunusable call.sender "sender"
  unfold execute
  rw [Operation.bind_ok (Operation.reading_ok hload)]
  cases command with
  | initiate chain amount recipient expiryHeight expiryTime =>
      have hcheck : (initiateMessage call chain amount recipient expiryHeight expiryTime).check
          cfg.hrp = .error (.invalidAddress (some "sender") why) := by
        unfold Initiate.check initiateMessage
        rw [hsender]
        rfl
      exact ⟨_, Operation.bind_error (Operation.lift_error hcheck), .inr ⟨why, rfl⟩⟩
  | cancel chain denom =>
      have hcheck : Cancel.check cfg.hrp { sender := call.sender, chain, denom } =
          .error (.invalidAddress (some "sender") why) := by
        unfold Cancel.check
        rw [hsender]
        rfl
      obtain ⟨e, hrun, he⟩ := refused_after_funds call hcheck _ s
      exact ⟨e, hrun, he.imp_right fun heq => ⟨why, heq⟩⟩
  | claim escrowId chain =>
      have hcheck : Claim.check cfg.hrp { sender := call.sender, escrowId, chain } =
          .error (.invalidAddress (some "sender") why) := by
        unfold Claim.check
        rw [hsender]
        rfl
      obtain ⟨e, hrun, he⟩ := refused_after_funds call hcheck _ s
      exact ⟨e, hrun, he.imp_right fun heq => ⟨why, heq⟩⟩

end Contract

/-! ## Releases -/

namespace Ibc.Transfer

variable {β ω : Type} [Custodian β] {cfg : Config} {data : TransferData}

/-- To a receiver that is in order, only the amount and the bank stand in the way of a release. -/
theorem release_of_usable (husable : Address.Usable cfg.hrp)
    (hreceiver : Address.validate cfg.hrp data.receiver = .ok data.receiver) (p : Packet)
    (w : World β ω) :
    (∃ bank, release cfg p data w = .ok .success { w with vault := { w.vault with bank } }) ∨
    (∃ reason, release cfg p data w = .ok (.error reason) w ∧
      (reason = "invalid amount" ∨ reason = "release failed")) ∨
    ∃ why, release cfg p data w = .error (.aborted why) w := by
  obtain ⟨escrow, hescrow, -⟩ :=
    husable.ofDigest (Address.escrowPreimage p.destination.port p.destination.channel)
  cases hamount : amount? data.amount with
  | none =>
      refine .inr (.inl ⟨"invalid amount", ?_, .inl rfl⟩)
      unfold release
      rw [hreceiver]
      simp only [hamount]
      rfl
  | some amount =>
      rw [release_run hreceiver hamount hescrow]
      cases hsend : Custodian.send w.vault.bank escrow data.receiver ⟨cfg.baseDenom, amount⟩ with
      | ok bank => exact .inl ⟨bank, rfl⟩
      | error e =>
          cases e with
          | aborted why => exact .inr (.inr ⟨why, rfl⟩)
          | _ => exact .inr (.inl ⟨"release failed", rfl, .inr rfl⟩)

theorem release_of_not_usable (hunusable : ¬ Address.Usable cfg.hrp) (p : Packet)
    (data : TransferData) (w : World β ω) :
    release cfg p data w = .ok (.error "invalid receiver") w := by
  obtain ⟨why, hreceiver⟩ := Address.validate_of_not_usable hunusable data.receiver
  unfold release
  rw [hreceiver]
  rfl

end Ibc.Transfer

/-! ## Set-ups -/

namespace Contract

variable {m : Setup} {s t : Store} {r : Response}

theorem of_instantiate_ok (h : instantiate m s = .ok r t) :
    m.config.hrp ≠ "" ∧ Coin.validDenom m.config.baseDenom ∧ t = Settings.save s m.config := by
  unfold instantiate at h
  simp only at h
  split at h
  · cases h
  · rename_i hhrp
    obtain ⟨u, s', hdenom, hsave⟩ := Operation.of_bind_ok h
    obtain ⟨hvalid, rfl⟩ := Operation.of_lift_ok hdenom
    cases hsave
    exact ⟨hhrp, requireDenom_eq_ok.1 hvalid, rfl⟩

theorem instantiate_isOk_iff (m : Setup) (s : Store) : (∃ r t, instantiate m s = .ok r t) ↔
    m.config.hrp ≠ "" ∧ Coin.validDenom m.config.baseDenom := by
  constructor
  · rintro ⟨r, t, h⟩
    obtain ⟨hhrp, hdenom, -⟩ := of_instantiate_ok h
    exact ⟨hhrp, hdenom⟩
  · rintro ⟨hhrp, hdenom⟩
    have hvalid : requireDenom m.config.baseDenom = .ok () := requireDenom_eq_ok.2 hdenom
    unfold instantiate
    simp only [if_neg hhrp]
    rw [Operation.bind_ok (Operation.lift_ok hvalid)]
    exact ⟨_, _, rfl⟩

/-- Nothing fails over an address, as long as those that are given are in order. -/
structure Serves (cfg : Config) : Prop where
  calls : ∀ {s t : Store} {env : Env} {call : Call} {command : Command} {e : Error},
    Settings.load s = .ok cfg → Address.validate cfg.hrp call.sender = .ok call.sender →
    (command.recipient = "" ∨
      Address.validate cfg.hrp command.recipient = .ok command.recipient) →
    execute env call command s = .error e t → e.NotOfAddress
  releases : ∀ {β ω : Type} [Custodian β] {data : Ibc.TransferData},
    Address.validate cfg.hrp data.receiver = .ok data.receiver →
    ∀ (p : Ibc.Packet) (w : Ibc.World β ω),
      (∃ bank, Ibc.Transfer.release cfg p data w =
        .ok .success { w with vault := { w.vault with bank } }) ∨
      (∃ reason, Ibc.Transfer.release cfg p data w = .ok (.error reason) w ∧
        (reason = "invalid amount" ∨ reason = "release failed")) ∨
      ∃ why, Ibc.Transfer.release cfg p data w = .error (.aborted why) w

/-- No address is in order, so nobody can call the contract and no packet is paid. -/
structure LockedOut (cfg : Config) : Prop where
  addresses : ∀ address, ∃ why, Address.validate cfg.hrp address = .error why
  calls : ∀ {s : Store}, Settings.load s = .ok cfg →
    ∀ (env : Env) (call : Call) (command : Command), ∃ e,
      execute env call command s = .error e s ∧
        (e = .notPayable ∨ ∃ why, e = .invalidAddress (some "sender") why)
  releases : ∀ {β ω : Type} [Custodian β] (p : Ibc.Packet) (data : Ibc.TransferData)
    (w : Ibc.World β ω),
    Ibc.Transfer.release cfg p data w = .ok (.error "invalid receiver") w

theorem serves_of_usable {cfg : Config} (h : Address.Usable cfg.hrp) : Serves cfg where
  calls hload hsender hrecipient := notOfAddress_of_execute hload hsender hrecipient
  releases hreceiver := Ibc.Transfer.release_of_usable h hreceiver

theorem lockedOut_of_not_usable {cfg : Config} (h : ¬ Address.Usable cfg.hrp) : LockedOut cfg where
  addresses := Address.validate_of_not_usable h
  calls hload := execute_of_not_usable h hload
  releases := Ibc.Transfer.release_of_not_usable h

/-- All that a set-up has to have is a prefix that is not empty and a denomination that is valid;
its settings are in force from then on. If the prefix is usable, and only then, every module and
every channel has an address that is accepted, and nothing fails over an address that is in order.
If it is not, nobody can call the contract and no packet is paid. -/
theorem accepted_prefix (m : Setup) (s : Store) :
    let cfg := m.config
    ((∃ r t, instantiate m s = .ok r t) ↔ cfg.hrp ≠ "" ∧ Coin.validDenom cfg.baseDenom) ∧
    (∀ r t, instantiate m s = .ok r t → Settings.load t = .ok cfg) ∧
    (Address.Usable cfg.hrp ↔ ∀ name port channel,
      (∃ a, Address.ofModule cfg.hrp name = .ok a ∧ Address.validate cfg.hrp a = .ok a) ∧
      ∃ a, Address.ofChannelEscrow cfg.hrp port channel = .ok a ∧
        Address.validate cfg.hrp a = .ok a) ∧
    (Address.Usable cfg.hrp → Serves cfg) ∧ (¬ Address.Usable cfg.hrp → LockedOut cfg) := by
  intro cfg
  refine ⟨instantiate_isOk_iff m s, ?_, ?_, serves_of_usable, lockedOut_of_not_usable⟩
  · intro r t h
    obtain ⟨-, -, rfl⟩ := of_instantiate_ok h
    exact Settings.load_save s cfg
  · constructor
    · intro h name port channel
      exact ⟨h.ofDigest _, h.ofDigest _⟩
    · intro h
      obtain ⟨⟨a, -, hvalid⟩, -⟩ := h "" "" ""
      exact Address.usable_of_validate hvalid

/-- A digit and a hyphen do no harm: a cancellation under such a prefix is refused, but not over the
address that asks. -/
theorem accepted_prefix_served :
    let setup : Setup := { hrp := some "dex-2" }
    let alice := "dex-2190vqdjtlpcq27xslcveglfmr4ynfwg7gke3yj7"
    let missing : Error := .notFound (.pendingEscrow "dex-1" "umaany")
    Settings.load (deployed setup) = .ok setup.config ∧
      (Address.ofModule "dex-2" "alice" = .ok alice ∧
        Address.validate "dex-2" alice = .ok alice) ∧
      (execute ⟨1, "contract"⟩ ⟨alice, []⟩ (.cancel "dex-1" "umaany")).result (deployed setup) =
        .error missing ∧
      missing.NotOfAddress := by
  intro setup alice missing
  obtain ⟨haccepted, hload, husable, hserves, -⟩ := accepted_prefix setup .empty
  have hdex : Address.Usable "dex-2" :=
    ⟨⟨by decide, by decide, by simp⟩, by simp⟩
  obtain ⟨r, t, hsetup⟩ := haccepted.2 ⟨by decide, by decide⟩
  have hdeployed : deployed setup = t := Operation.after_ok hsetup
  have hload : Settings.load (deployed setup) = .ok setup.config := hdeployed ▸ hload r t hsetup
  obtain ⟨⟨a, ha, hvalid⟩, -⟩ := husable.1 hdex "alice" "transfer" "channel-0"
  have hname : Address.ofModule "dex-2" "alice" = .ok alice := by decide +kernel
  obtain rfl : a = alice := Except.ok.inj (ha.symm.trans hname)
  have hcancel : (execute ⟨1, "contract"⟩ ⟨alice, []⟩ (.cancel "dex-1" "umaany")).result
      (deployed setup) = .error missing := by
    decide +kernel
  have hother : missing.NotOfAddress := by
    refine (hserves hdex).calls ?_ ?_ ?_ (Operation.error_of_result hcancel)
    · exact hload
    · exact hvalid
    · exact .inl rfl
  exact ⟨hload, ⟨ha, hvalid⟩, hcancel, hother⟩

/-- A prefix in upper case is accepted. But what is written with it is in lower case, so that no
address is ever in order. -/
theorem upper_case_accepted :
    let setup : Setup := { hrp := some "MAANY" }
    let alice := "maany190vqdjtlpcq27xslcveglfmr4ynfwg7g9637yr"
    let coin : Coin := ⟨"umaany", ⟨100, by decide⟩⟩
    let fault : Address.Fault := .wrongHrp "MAANY" "maany"
    (instantiate setup).result .empty = .ok {
        attributes := [
          ("method", "instantiate"),
          ("base_denom", "umaany"),
          ("trusted_consumer_chain_id", "maanydex")] } ∧
      Settings.load (deployed setup) = .ok setup.config ∧
      Address.ofModule "MAANY" "alice" = .ok alice ∧
      Address.validate "MAANY" alice = .error fault ∧
      (execute ⟨1, "contract"⟩ ⟨alice, [coin]⟩ (.initiate "dex-1" coin none none none)).result
        (deployed setup) = .error (.invalidAddress (some "sender") fault) := by
  decide +kernel

end Contract

end Custody
