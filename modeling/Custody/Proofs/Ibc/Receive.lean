import Mathlib.Control.Monad.Basic
import Custody.Ibc.TransferLayer
import Custody.Proofs.Bank.Balances
import Custody.Proofs.Operation

/-!
# Packets that arrive

The transfer layer leaves a packet to the application as it is, or answers it without asking the
application at all: it pays what the packet brings home out of the escrow account of the channel.
-/

namespace Custody

namespace Bech32

/-- Whether something can be written depends on the human-readable part alone. -/
theorem encode_of_encode {hrp : String} {data : List Symbol} {s : String}
    (h : encode hrp data = .ok s) (other : List Symbol) : ∃ t, encode hrp other = .ok t := by
  unfold encode at h ⊢
  cases hread : readablePart hrp with
  | error why =>
      rw [hread] at h
      cases h
  | ok seen => exact ⟨_, rfl⟩

end Bech32

namespace Ibc.Transfer

open Operation

variable {β ω : Type}

/-! ## Which packets the layer answers -/

/-- The packet came from another port or over a channel that is not allowed, or it brings something
else than this chain's own token as minted by the sender. -/
def Foreign (cfg : Config) (s : Store) (p : Packet) : Prop :=
  p.source.port ≠ cfg.transferPort ∨ ¬ ChannelSet.contains s p.destination.channel ∨
    ∃ data ∈ Json.decode? TransferData p.data,
      (p.source.port ++ "/" ++ p.source.channel ++ "/").toList <+: data.denom.toList ∨
        (DenomTrace.read data.denom).baseDenom ≠ cfg.baseDenom

instance (cfg : Config) (s : Store) (p : Packet) : Decidable (Foreign cfg s p) :=
  inferInstanceAs (Decidable (_ ∨ _ ∨ ∃ _ ∈ Json.decode? TransferData p.data, _))

theorem foreign_iff {cfg : Config} {s : Store} {p : Packet} : Foreign cfg s p ↔
    concerns cfg s p = false ∨
      ∃ data ∈ Json.decode? TransferData p.data, returnsHome cfg p data.denom = false := by
  have hconcerns : concerns cfg s p = false ↔
      p.source.port ≠ cfg.transferPort ∨ ¬ ChannelSet.contains s p.destination.channel := by
    simp [concerns, Classical.or_iff_not_imp_left]
  have hhome : ∀ denom, returnsHome cfg p denom = false ↔
      (p.source.port ++ "/" ++ p.source.channel ++ "/").toList <+: denom.toList ∨
        (DenomTrace.read denom).baseDenom ≠ cfg.baseDenom := by
    intro denom
    rw [← List.isPrefixOf_iff_prefix, returnsHome, startsAtSource]
    generalize (p.source.port ++ "/" ++ p.source.channel ++ "/").toList.isPrefixOf denom.toList =
      starts
    cases starts <;> simp
  simp only [Foreign, hconcerns, hhome, or_assoc]

theorem not_foreign_iff {cfg : Config} {s : Store} {p : Packet} : ¬ Foreign cfg s p ↔
    concerns cfg s p ∧
      ∀ data ∈ Json.decode? TransferData p.data, returnsHome cfg p data.denom := by
  simp only [foreign_iff, not_or, not_exists, not_and, Bool.not_eq_false]

/-- The packet asks for the amount of this chain's own token to be paid to the receiver. -/
def Asks (cfg : Config) (p : Packet) (receiver : Address) (amount : Amount) : Prop :=
  ∃ data ∈ Json.decode? TransferData p.data,
    Address.validate cfg.hrp data.receiver = .ok receiver ∧
      Amount.read data.amount = .ok amount ∧ amount.val ≠ 0

instance (cfg : Config) (p : Packet) (receiver : Address) (amount : Amount) :
    Decidable (Asks cfg p receiver amount) :=
  inferInstanceAs (Decidable (∃ _ ∈ Json.decode? TransferData p.data, _))

theorem amount?_eq_some {text : String} {a : Amount} :
    amount? text = some a ↔ Amount.read text = .ok a ∧ a.val ≠ 0 := by
  unfold amount?
  cases Amount.read text with
  | error why => simp
  | ok b =>
      by_cases hb : b.val = 0
      · simp only [if_pos hb, Except.ok.injEq]
        constructor
        · intro h
          cases h
        · rintro ⟨rfl, hpos⟩
          exact absurd hb hpos
      · simp only [if_neg hb, Except.ok.injEq, Option.some.injEq]
        constructor
        · rintro rfl
          exact ⟨rfl, hb⟩
        · exact And.left

/-! ## The layer on a packet -/

section Receiving

variable [Custodian β] {cfg : Config} {p : Packet} {relayer : Address}
  {app : Application β ω} {w : World β ω}

theorem receive_unconcerned (h : concerns cfg w.vault.store p = false) :
    receive cfg app p relayer w = app (.receive p relayer) w := by
  unfold receive
  change (if concerns cfg w.vault.store p then _ else _ : Operation (World β ω) Reply) w = _
  rw [h]
  rfl

theorem receive_unreadable (h : concerns cfg w.vault.store p)
    (hdata : Json.decode? TransferData p.data = none) :
    receive cfg app p relayer w = .ok (.acknowledged (.error "invalid packet data")) w := by
  unfold receive
  change (if concerns cfg w.vault.store p then _ else _ : Operation (World β ω) Reply) w = _
  rw [if_pos h, hdata]
  rfl

theorem receive_readable (h : concerns cfg w.vault.store p) {data : TransferData}
    (hdata : Json.decode? TransferData p.data = some data) :
    receive cfg app p relayer w =
      if returnsHome cfg p data.denom then
        (release cfg p data >>= fun a => pure (.acknowledged a) : Operation (World β ω) Reply) w
      else app (.receive p relayer) w := by
  unfold receive
  change (if concerns cfg w.vault.store p then _ else _ : Operation (World β ω) Reply) w = _
  rw [if_pos h, hdata]
  simp only
  split
  · rfl
  · rfl

/-- What is foreign reaches the application, on a world that the layer has not touched. -/
theorem receive_foreign (h : Foreign cfg w.vault.store p) :
    receive cfg app p relayer w = app (.receive p relayer) w := by
  by_cases hconcerns : concerns cfg w.vault.store p
  · rcases foreign_iff.1 h with hnot | ⟨data, hdata, hforeign⟩
    · rw [hconcerns] at hnot
      cases hnot
    · rw [receive_readable hconcerns hdata, hforeign]
      rfl
  · exact receive_unconcerned (eq_false_of_ne_true hconcerns)

/-- What is not foreign, and can be read, comes to a release. -/
theorem receive_home (h : ¬ Foreign cfg w.vault.store p) {data : TransferData}
    (hdata : Json.decode? TransferData p.data = some data) :
    receive cfg app p relayer w =
      (release cfg p data >>= fun a => pure (.acknowledged a) : Operation (World β ω) Reply) w := by
  obtain ⟨hconcerns, hhome⟩ := not_foreign_iff.1 h
  rw [receive_readable hconcerns hdata, if_pos (hhome data hdata)]

/-- A release comes down to a transfer once everything in the packet has been found good. -/
theorem release_run {data : TransferData} {receiver escrow : Address} {amount : Amount}
    (hreceiver : Address.validate cfg.hrp data.receiver = .ok receiver)
    (hamount : amount? data.amount = some amount)
    (hescrow : Address.ofChannelEscrow cfg.hrp p.destination.port p.destination.channel =
      .ok escrow) :
    release cfg p data w =
      match Custodian.send w.vault.bank escrow receiver ⟨cfg.baseDenom, amount⟩ with
      | .ok bank => .ok .success { w with vault := { w.vault with bank } }
      | .error (.aborted why) => .error (.aborted why) w
      | .error _ => .ok (.error "release failed") w := by
  unfold release
  rw [hreceiver]
  simp only [hamount, hescrow]
  change (match Custodian.send w.vault.bank escrow receiver ⟨cfg.baseDenom, amount⟩ with
    | .ok bank => _
    | .error (.aborted why) => _
    | .error _ => _ : Operation (World β ω) Acknowledgement) w = _
  generalize Custodian.send w.vault.bank escrow receiver ⟨cfg.baseDenom, amount⟩ = sent
  cases sent with
  | ok bank => rfl
  | error e => cases e <;> rfl

/-- An answer to a packet is the transfer that it asks for, with nothing else around it. -/
theorem receive_asks {receiver escrow : Address} {amount : Amount}
    (hhome : ¬ Foreign cfg w.vault.store p)
    (hescrow : Address.ofChannelEscrow cfg.hrp p.destination.port p.destination.channel =
      .ok escrow) (hasks : Asks cfg p receiver amount) :
    (∀ bank, Custodian.send w.vault.bank escrow receiver ⟨cfg.baseDenom, amount⟩ = .ok bank →
      receive cfg app p relayer w =
        .ok (.acknowledged .success) { w with vault := { w.vault with bank } }) ∧
    ∀ why, Custodian.send w.vault.bank escrow receiver ⟨cfg.baseDenom, amount⟩ =
        .error (.aborted why) →
      receive cfg app p relayer w = .error (.aborted why) w := by
  obtain ⟨data, hdata, hreceiver, hread, hpos⟩ := hasks
  have hrelease := release_run (w := w) hreceiver (amount?_eq_some.2 ⟨hread, hpos⟩) hescrow
  constructor
  · intro bank hsend
    rw [hsend] at hrelease
    exact (receive_home hhome hdata).trans (bind_ok hrelease)
  · intro why hsend
    rw [hsend] at hrelease
    exact (receive_home hhome hdata).trans (bind_error hrelease)

end Receiving

/-! ## Releases out of an escrow account -/

section Releasing

variable {cfg : Config} {p : Packet} {relayer escrow receiver : Address} {amount : Amount}
  {w : World Balances ω}

theorem release_refused {data : TransferData}
    (hdata : Json.decode? TransferData p.data = some data)
    (hescrow : Address.ofChannelEscrow cfg.hrp p.destination.port p.destination.channel =
      .ok escrow)
    (hpoor : ∀ receiver amount, Asks cfg p receiver amount →
      ¬ w.vault.bank.Covers escrow ⟨cfg.baseDenom, amount⟩) :
    ∃ reason, release cfg p data w = .ok (.error reason) w := by
  cases hreceiver : Address.validate cfg.hrp data.receiver with
  | error why =>
      refine ⟨"invalid receiver", ?_⟩
      unfold release
      rw [hreceiver]
      rfl
  | ok receiver =>
      cases hamount : amount? data.amount with
      | none =>
          refine ⟨"invalid amount", ?_⟩
          unfold release
          rw [hreceiver]
          simp only [hamount]
          rfl
      | some amount =>
          obtain ⟨hread, hpos⟩ := amount?_eq_some.1 hamount
          have hsend : Custodian.send w.vault.bank escrow receiver ⟨cfg.baseDenom, amount⟩ = _ :=
            Balances.send_poor (hpoor receiver amount ⟨data, hdata, hreceiver, hread, hpos⟩)
          refine ⟨"release failed", ?_⟩
          rw [release_run hreceiver hamount hescrow, hsend]

/-- What the layer makes of a packet that is not foreign. The application has no part in it, so its
state stays as it was, and the store with it. -/
structure Answers (cfg : Config) (d : Directory) (p : Packet) (relayer escrow : Address)
    (w : World Balances ω) : Prop where
  paid : ∀ {receiver amount}, Asks cfg p receiver amount →
    w.vault.bank.Covers escrow ⟨cfg.baseDenom, amount⟩ →
    w.vault.bank.Fits escrow receiver ⟨cfg.baseDenom, amount⟩ →
    ∃ bank : Balances, (∀ app, layer cfg d app (.receive p relayer) w =
        .ok (.acknowledged .success) { w with vault := { w.vault with bank } }) ∧
      ∀ account denom,
        (bank.balance account denom).val +
            Balances.share ⟨cfg.baseDenom, amount⟩ escrow account denom =
          (w.vault.bank.balance account denom).val +
            Balances.share ⟨cfg.baseDenom, amount⟩ receiver account denom
  aborted : ∀ {receiver amount}, Asks cfg p receiver amount →
    w.vault.bank.Covers escrow ⟨cfg.baseDenom, amount⟩ →
    ¬ w.vault.bank.Fits escrow receiver ⟨cfg.baseDenom, amount⟩ →
    ∀ app, layer cfg d app (.receive p relayer) w = .error (.aborted .balanceOverflow) w
  refused : (∀ receiver amount, Asks cfg p receiver amount →
      ¬ w.vault.bank.Covers escrow ⟨cfg.baseDenom, amount⟩) →
    ∃ reason, ∀ app, layer cfg d app (.receive p relayer) w =
      .ok (.acknowledged (.error reason)) w

/-- A packet is answered with success exactly if what it asks for can be paid. -/
theorem Answers.success_iff {d : Directory} (h : Answers cfg d p relayer escrow w)
    (app : Application Balances ω) :
    (layer cfg d app (.receive p relayer)).result w = .ok (.acknowledged .success) ↔
      ∃ receiver amount, Asks cfg p receiver amount ∧
        w.vault.bank.Covers escrow ⟨cfg.baseDenom, amount⟩ ∧
          w.vault.bank.Fits escrow receiver ⟨cfg.baseDenom, amount⟩ := by
  constructor
  · intro hsuccess
    by_cases hpayable : ∃ receiver amount, Asks cfg p receiver amount ∧
        w.vault.bank.Covers escrow ⟨cfg.baseDenom, amount⟩
    · obtain ⟨receiver, amount, hasks, hcovers⟩ := hpayable
      refine ⟨receiver, amount, hasks, hcovers, ?_⟩
      by_contra hfits
      rw [result, h.aborted hasks hcovers hfits app] at hsuccess
      cases hsuccess
    · obtain ⟨reason, hrefused⟩ := h.refused fun receiver amount hasks hcovers =>
        hpayable ⟨receiver, amount, hasks, hcovers⟩
      rw [result, hrefused app] at hsuccess
      cases hsuccess
  · rintro ⟨receiver, amount, hasks, hcovers, hfits⟩
    obtain ⟨bank, hpaid, -⟩ := h.paid hasks hcovers hfits
    rw [result, hpaid app]

theorem answers (d : Directory) (hhome : ¬ Foreign cfg w.vault.store p)
    (hescrow : Address.ofChannelEscrow cfg.hrp p.destination.port p.destination.channel =
      .ok escrow) : Answers cfg d p relayer escrow w where
  paid hasks hcovers hfits := by
    obtain ⟨bank, hsend⟩ := Balances.send_of_fits hcovers hfits
    exact ⟨bank, fun app => (receive_asks hhome hescrow hasks).1 bank hsend,
      Balances.balance_of_send hsend⟩
  aborted hasks hcovers hfits app :=
    (receive_asks hhome hescrow hasks).2 _ (Balances.send_overflow hcovers hfits)
  refused hpoor := by
    cases hdata : Json.decode? TransferData p.data with
    | none =>
        refine ⟨"invalid packet data", ?_⟩
        intro app
        exact receive_unreadable (not_foreign_iff.1 hhome).1 hdata
    | some data =>
        obtain ⟨reason, hrelease⟩ := release_refused hdata hescrow hpoor
        refine ⟨reason, ?_⟩
        intro app
        exact (receive_home hhome hdata).trans (bind_ok hrelease)

/-- Under a human-readable part that addresses can be written with: a foreign packet goes to the
application as it is, and any other is answered out of the escrow account of its channel. -/
theorem packets_routed {raw : Bytes} {address : Address}
    (hencodable : Address.encode cfg.hrp raw = .ok address) (d : Directory) (p : Packet)
    (relayer : Address) (w : World Balances ω) :
    (Foreign cfg w.vault.store p →
      ∀ app, layer cfg d app (.receive p relayer) w = app (.receive p relayer) w) ∧
    (¬ Foreign cfg w.vault.store p →
      ∃ escrow, Address.ofChannelEscrow cfg.hrp p.destination.port p.destination.channel =
          .ok escrow ∧
        Answers cfg d p relayer escrow w ∧
        ∀ app, (layer cfg d app (.receive p relayer)).result w = .ok (.acknowledged .success) ↔
          ∃ receiver amount, Asks cfg p receiver amount ∧
            w.vault.bank.Covers escrow ⟨cfg.baseDenom, amount⟩ ∧
              w.vault.bank.Fits escrow receiver ⟨cfg.baseDenom, amount⟩) := by
  constructor
  · intro hforeign app
    exact receive_foreign hforeign
  · intro hhome
    obtain ⟨escrow, hescrow⟩ := Bech32.encode_of_encode hencodable _
    have hanswers : Answers cfg d p relayer escrow w := answers d hhome hescrow
    exact ⟨escrow, hescrow, hanswers, hanswers.success_iff⟩

theorem packets_routed_payment :
    let escrow := "maany1a53udazy8ayufvy0s434pfwjcedzqv34ndtvl7"
    let receiver := "maany1sxmr0k8u6trd5c6eu6trzyapzux7090y5aayfr"
    let p : Packet := ⟨⟨"transfer", "channel-7"⟩, ⟨"transfer", "channel-0"⟩, 1,
      Json.encode (⟨"umaany", "3", "dex1sender", receiver, ""⟩ : TransferData)⟩
    let paid : Coin := ⟨"umaany", ⟨3, by decide⟩⟩
    let w : World Balances (List Callback) :=
      ⟨⟨ChannelSet.insert .empty "channel-0",
        (Balances.empty "maany").set escrow ⟨"umaany", ⟨5, by decide⟩⟩⟩, [], []⟩
    Address.encode ({} : Config).hrp [] = .ok "maany12538rf" ∧
      ∃ bank : Balances, (∀ app,
          layer {} ({} : Registry).directory app (.receive p "relayer") w =
            .ok (.acknowledged .success) { w with vault := { w.vault with bank } }) ∧
        ∀ account denom,
          (bank.balance account denom).val + Balances.share paid escrow account denom =
            (w.vault.bank.balance account denom).val +
              Balances.share paid receiver account denom := by
  intro escrow receiver p paid w
  have hencodable : Address.encode ({} : Config).hrp [] = .ok "maany12538rf" := by decide +kernel
  have hhome : ¬ Foreign {} w.vault.store p := by decide +kernel
  obtain ⟨account, haccount, hanswers, -⟩ :=
    (packets_routed hencodable ({} : Registry).directory p "relayer" w).2 hhome
  have hescrow : account = escrow := Except.ok.inj (haccount.symm.trans (by decide +kernel))
  subst hescrow
  refine ⟨hencodable, hanswers.paid ?_ ?_ ?_⟩
  · decide +kernel
  · decide +kernel
  · decide +kernel

/-- A payment that would take the receiver to the limit of an amount ends the callback, although
the packet is in order and the escrow account has the funds. -/
theorem release_aborts_at_limit :
    let escrow := "maany1a53udazy8ayufvy0s434pfwjcedzqv34ndtvl7"
    let receiver := "maany1sxmr0k8u6trd5c6eu6trzyapzux7090y5aayfr"
    let p : Packet := ⟨⟨"transfer", "channel-7"⟩, ⟨"transfer", "channel-0"⟩, 1,
      Json.encode (⟨"umaany", "1", "dex1sender", receiver, ""⟩ : TransferData)⟩
    let one : Amount := ⟨1, by decide⟩
    let bank := ((Balances.empty "maany").set escrow ⟨"umaany", one⟩).set receiver
      ⟨"umaany", ⟨Amount.limit - 1, by decide⟩⟩
    let w : World Balances (List Callback) :=
      ⟨⟨ChannelSet.insert .empty "channel-0", bank⟩, [], []⟩
    (¬ Foreign {} w.vault.store p ∧ Asks {} p receiver one ∧
        Address.ofChannelEscrow ({} : Config).hrp "transfer" "channel-0" = .ok escrow ∧
        bank.Covers escrow ⟨"umaany", one⟩) ∧
      (layer {} ({} : Registry).directory (recorder false) (.receive p "relayer")).result w =
        .error (.aborted .balanceOverflow) := by
  decide +kernel

end Releasing

end Ibc.Transfer

end Custody
