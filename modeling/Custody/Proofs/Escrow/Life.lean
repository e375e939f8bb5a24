import Mathlib.Control.Monad.Basic
import Custody.Bank.Balances
import Custody.Proofs.Escrow.Run

/-!
# The life of an escrow

From its opening on an escrow stays on record as it was asked for, under the same depositor. Its
status changes once at most: it is claimed, or canceled by the depositor. Whatever succeeds on it
settles it.
-/

namespace Custody.Vault

open Ledger (IsSound Stored)

variable {β : Type}

/-- On record as the message asks for it, with this status and the sender as its depositor. -/
structure Records (v : Vault β) (m : Initiate) (id : String) (status : Status) : Prop where
  escrow : Ledger.byId v.store id = .ok (some {
    id
    chain := m.chain
    amount := m.amount
    recipient := m.recipient
    expiryHeight := m.expiryHeight
    expiryTime := m.expiryTime
    status })
  depositor : Depositors.find? v.store id = .ok (some m.sender)

variable {cfg : Config} {v : Vault β} {m : Initiate} {id : String} {status : Status}

theorem Records.stored (hrecords : Records v m id status) (h : IsSound v.store) :
    Stored v.store ((m.escrow id).settle status) :=
  (h.wellKeyed.byId_some hrecords.escrow).1

theorem Records.status_eq {other : Status} (hrecords : Records v m id status)
    (hother : Records v m id other) : status = other := by
  have hsame := hrecords.escrow.symm.trans hother.escrow
  cases hsame
  rfl

/-- Two vaults that have the escrow on record alike have the same bytes committed. -/
theorem Records.raw_eq {v' : Vault β} (hrecords : Records v m id status) (h : IsSound v.store)
    (hrecords' : Records v' m id status) (h' : IsSound v'.store) :
    Ledger.raw v'.store id = Ledger.raw v.store id :=
  (hrecords'.stored h').get.trans (hrecords.stored h).get.symm

/-- A claim of an escrow that is no longer pending is refused. -/
theorem Records.claim_result (hrecords : Records v m id status) (hdone : status ≠ .pending)
    {c : Claim} (hnamed : c.escrowId = id) :
    (Vault.claim c).result v = .error .unauthorized := by
  have hrun : Vault.claim c v = .error .unauthorized v := by
    unfold Vault.claim
    rw [hnamed, Operation.bind_ok (readingStore_ok hrecords.escrow)]
    simp only [if_pos hdone]
    rfl
  rw [Operation.result, hrun]

theorem Records.settle_other (hrecords : Records v m id status) (h : IsSound v.store) {x : Escrow}
    (hid : x.id ≠ id) (final : Status) (bank : β) :
    Records ⟨Ledger.entered (x.settle final) v.store, bank⟩ m id status where
  escrow := ((hrecords.stored h).settle_other (Ne.symm hid) final).byId
  depositor := (Depositors.find_entered _ _ _).trans hrecords.depositor

/-- Once it is settled the escrow has the new status. -/
theorem Records.settle_self (hrecords : Records v m id status) (h : IsSound v.store) {x : Escrow}
    (hx : Stored v.store x) (hid : x.id = id) (final : Status) (bank : β) :
    x.status = status ∧ Records ⟨Ledger.entered (x.settle final) v.store, bank⟩ m id final := by
  obtain rfl := (hrecords.stored h).eq_of_id hx hid
  exact ⟨rfl, (hx.settle final).byId,
    (Depositors.find_entered _ _ _).trans hrecords.depositor⟩

theorem Records.opened (hrecords : Records v m id status) (h : IsSound v.store) {n : Nat}
    (hlast : Ledger.lastId v.store = .ok n) (m' : Initiate) (bank : β) :
    Records ⟨Vault.opened m' (n + 1) v.store, bank⟩ m id status := by
  have hid : id ≠ toString (n + 1) := h.id_ne hlast (hrecords.stored h)
  exact ⟨((hrecords.stored h).opened_other hid).byId,
    (Depositors.find_opened m' (n + 1) v.store id).trans ((if_neg hid).trans hrecords.depositor)⟩

/-! ## Actions on an escrow -/

variable [Custodian β]

/-- A successful claim that names the escrow, or a successful cancellation by its owner on a route
that leads to it. -/
inductive Action.Settles (cfg : Config) (v : Vault β) (id : String) (owner : Address) :
    Action → Status → Prop
  | claimed {c : Claim} {e : Escrow} (hnamed : c.escrowId = id)
      (hdone : (Vault.claim c).result v = .ok e) : Settles cfg v id owner (.claim c) .claimed
  | canceled {c : Cancel} {x e : Escrow}
      (hrouted : Ledger.byRoute v.store c.chain c.denom = .ok (some x)) (hid : x.id = id)
      (hsender : c.sender = owner) (hdone : (Vault.cancel cfg c).result v = .ok e) :
      Settles cfg v id owner (.cancel c) .canceled

/-- How many of the actions change the bytes committed under the id. -/
def changes (cfg : Config) (id : String) : List Action → Vault β → Nat
  | [], _ => 0
  | a :: rest, v =>
    (if Ledger.raw (a.after cfg v).store id = Ledger.raw v.store id then 0 else 1) +
      changes cfg id rest (a.after cfg v)

/-- Where in its life the escrow that a message has opened is: what is on record of it, and what
another action can and must do to it. -/
structure Stage (cfg : Config) (m : Initiate) (id : String) (v : Vault β) (status : Status) :
    Prop where
  recorded : Records v m id status
  /-- An action leaves the escrow as it is on record, or settles it. -/
  next : ∀ a : Action, Records (a.after cfg v) m id status ∨
    status = .pending ∧ ∃ final, a.Settles cfg v id m.sender final ∧
      Records (a.after cfg v) m id final
  /-- What succeeds on the escrow finds it pending and leaves it claimed or canceled. -/
  settled : ∀ (a : Action) (final : Status), a.Settles cfg v id m.sender final →
    status = .pending ∧ Records (a.after cfg v) m id final
  /-- Whoever else asks for a cancellation is refused. -/
  owned : ∀ (c : Cancel) (x e : Escrow), Ledger.byRoute v.store c.chain c.denom = .ok (some x) →
    x.id = id → (Vault.cancel cfg c).result v = .ok e → c.sender = m.sender
  claimable : status = .pending → ∀ c : Claim, c.escrowId = id →
    (Action.claim c).Settles cfg v id m.sender .claimed
  final : status ≠ .pending → (∀ rest, Records (run cfg rest v) m id status) ∧
    ∀ c : Claim, c.escrowId = id → (Vault.claim c).result v = .error .unauthorized

/-- The life of the escrow that a message has opened, from the vault at the start and along some
actions. -/
structure Life (cfg : Config) (m : Initiate) (id : String) (start : Vault β)
    (actions : List Action) : Prop where
  pending : Records start m id .pending
  once : changes cfg id actions start ≤ 1
  now : ∃ status, Stage cfg m id (run cfg actions start) status

/-- Only the depositor can cancel the escrow. -/
theorem Records.sender_of_cancel (hrecords : Records v m id status) {c : Cancel} {x e : Escrow}
    (hrouted : Ledger.byRoute v.store c.chain c.denom = .ok (some x)) (hid : x.id = id)
    (hdone : (Vault.cancel cfg c).result v = .ok e) : c.sender = m.sender := by
  obtain ⟨-, howner, -⟩ := canceled_of_result hrouted hdone
  rw [hid, hrecords.depositor] at howner
  exact (Option.some.inj (Except.ok.inj howner)).symm

/-- An action leaves the escrow as it is on record, or settles it while it is pending. -/
theorem Records.after (cfg : Config) (hrecords : Records v m id status) (h : IsSound v.store)
    (a : Action) :
    Records (a.after cfg v) m id status ∨
      status = .pending ∧ ∃ final, a.Settles cfg v id m.sender final ∧
        Records (a.after cfg v) m id final := by
  have heffect := effect cfg h.wellKeyed a
  generalize hwritten : a.written? cfg v = written at heffect
  generalize a.after cfg v = v' at heffect
  cases heffect with
  | refused a => exact .inl hrecords
  | stranded hholder hsend => exact .inl ⟨hrecords.escrow, hrecords.depositor⟩
  | @opened m' inMemory account bank n hcoin hsender hholder hsend hlast hn =>
      exact .inl (hrecords.opened h hlast m' bank)
  | @canceled c x account bank hx hpending hrouted howner hholder hsend =>
      by_cases hid : x.id = id
      · obtain ⟨hstatus, hfinal⟩ := hrecords.settle_self h hx hid .canceled bank
        have hleads := hx.byRoute hrouted
        have hdone := Action.result_of_cancel hwritten
        have hsettles : (Action.cancel c).Settles cfg v id m.sender .canceled :=
          .canceled hleads hid (hrecords.sender_of_cancel hleads hid hdone) hdone
        exact .inr ⟨hstatus.symm.trans hpending, .canceled, hsettles, hfinal⟩
      · exact .inl (hrecords.settle_other h hid .canceled bank)
  | @claimed c x hx hpending hnamed =>
      by_cases hid : x.id = id
      · obtain ⟨hstatus, hfinal⟩ := hrecords.settle_self h hx hid .claimed v.bank
        have hsettles : (Action.claim c).Settles cfg v id m.sender .claimed :=
          .claimed (hnamed.symm.trans hid) (Action.result_of_claim cfg hwritten)
        exact .inr ⟨hstatus.symm.trans hpending, .claimed, hsettles, hfinal⟩
      · exact .inl (hrecords.settle_other h hid .claimed v.bank)

/-- What settles the escrow finds it pending and leaves it with its final status. -/
theorem Records.after_settles (hrecords : Records v m id status) (h : IsSound v.store)
    {a : Action} {final : Status} (hsettles : a.Settles cfg v id m.sender final) :
    status = .pending ∧ Records (a.after cfg v) m id final := by
  cases hsettles with
  | @claimed c e hnamed hdone =>
      obtain ⟨x, hfound, hpending, hafter⟩ := claimed_of_result hdone
      obtain ⟨hx, hname⟩ := h.wellKeyed.byId_some hfound
      obtain ⟨hstatus, hfinal⟩ :=
        hrecords.settle_self h hx (hname.trans hnamed) .claimed v.bank
      rw [Action.after, hafter]
      exact ⟨hstatus.symm.trans hpending, hfinal⟩
  | @canceled c x e hrouted hid hsender hdone =>
      obtain ⟨hfound, -, bank, hafter⟩ := canceled_of_result hrouted hdone
      obtain ⟨hx, hpending, -⟩ := h.wellKeyed.pendingOnRoute hfound
      obtain ⟨hstatus, hfinal⟩ := hrecords.settle_self h hx hid .canceled bank
      rw [Action.after, hafter]
      exact ⟨hstatus.symm.trans hpending, hfinal⟩

/-- Every claim that names the escrow settles it while it is pending. -/
theorem Records.settles_of_claim (cfg : Config) (hrecords : Records v m id .pending)
    (h : IsSound v.store) {c : Claim} (hnamed : c.escrowId = id) :
    (Action.claim c).Settles cfg v id m.sender .claimed := by
  have hid : (m.escrow id).id ≠ "" := (hrecords.stored h).id_ne
  have hrun : Vault.claim c v = .ok ((m.escrow id).settle .claimed)
      { v with store := Ledger.entered ((m.escrow id).settle .claimed) v.store } := by
    unfold Vault.claim
    rw [hnamed, Operation.bind_ok (readingStore_ok hrecords.escrow)]
    exact mark_run hid .claimed v
  exact .claimed hnamed (Operation.result_ok hrun)

theorem Action.Settles.ne_pending {owner : Address} {a : Action}
    (h : a.Settles cfg v id owner status) : status ≠ .pending := by
  cases h <;> decide

/-- What is claimed or canceled stays so. -/
theorem Records.after_final (cfg : Config) (hrecords : Records v m id status)
    (h : IsSound v.store) (hdone : status ≠ .pending) (a : Action) :
    Records (a.after cfg v) m id status := by
  rcases hrecords.after cfg h a with hsame | ⟨hpending, -⟩
  · exact hsame
  · exact absurd hpending hdone

/-! ## Any number of actions -/

theorem Records.run_final (hrecords : Records v m id status) (h : IsSound v.store)
    (hdone : status ≠ .pending) (actions : List Action) :
    Records (run cfg actions v) m id status := by
  have hboth : IsSound (run cfg actions v).store ∧ Records (run cfg actions v) m id status := by
    apply run_induction (P := fun w => IsSound w.store ∧ Records w m id status) _ ⟨h, hrecords⟩
    rintro a - w ⟨hsound, hw⟩
    exact ⟨isSound_after cfg hsound a, hw.after_final cfg hsound hdone a⟩
  exact hboth.2

theorem Records.run (cfg : Config) (hrecords : Records v m id status) (h : IsSound v.store)
    (actions : List Action) : ∃ now, Records (run cfg actions v) m id now := by
  have hboth : IsSound (Vault.run cfg actions v).store ∧
      ∃ now, Records (Vault.run cfg actions v) m id now := by
    apply run_induction (P := fun w => IsSound w.store ∧ ∃ now, Records w m id now) _
      ⟨h, status, hrecords⟩
    rintro a - w ⟨hsound, now, hw⟩
    refine ⟨isSound_after cfg hsound a, ?_⟩
    rcases hw.after cfg hsound a with hsame | ⟨-, final, -, hfinal⟩
    · exact ⟨now, hsame⟩
    · exact ⟨final, hfinal⟩
  exact hboth.2

theorem Records.changes_final (hrecords : Records v m id status) (h : IsSound v.store)
    (hdone : status ≠ .pending) (actions : List Action) : changes cfg id actions v = 0 := by
  induction actions generalizing v with
  | nil => rfl
  | cons a actions ih =>
      have hafter := hrecords.after_final cfg h hdone a
      have hsound := isSound_after cfg h a
      rw [changes, if_pos (hrecords.raw_eq h hafter hsound), ih hafter hsound]

theorem Records.changes_le_one (hrecords : Records v m id status) (h : IsSound v.store)
    (actions : List Action) : changes cfg id actions v ≤ 1 := by
  induction actions generalizing v status with
  | nil => exact Nat.zero_le 1
  | cons a actions ih =>
      have hsound := isSound_after cfg h a
      rw [changes]
      rcases hrecords.after cfg h a with hsame | ⟨-, final, hsettles, hfinal⟩
      · rw [if_pos (hrecords.raw_eq h hsame hsound), Nat.zero_add]
        exact ih hsame hsound
      · rw [hfinal.changes_final hsound hsettles.ne_pending actions]
        split <;> decide

theorem Records.stage (hrecords : Records v m id status) (h : IsSound v.store) :
    Stage cfg m id v status where
  recorded := hrecords
  next := hrecords.after cfg h
  settled _ _ := hrecords.after_settles h
  owned _ _ _ := hrecords.sender_of_cancel
  claimable := by
    rintro rfl c
    exact hrecords.settles_of_claim cfg h
  final hdone := ⟨hrecords.run_final h hdone, fun _ => hrecords.claim_result hdone⟩

theorem Records.life (hrecords : Records v m id .pending) (h : IsSound v.store)
    (actions : List Action) : Life cfg m id v actions where
  pending := hrecords
  once := hrecords.changes_le_one h actions
  now := by
    obtain ⟨status, hnow⟩ := hrecords.run cfg h actions
    exact ⟨status, hnow.stage (isSound_run cfg h actions)⟩

/-! ## From the opening on -/

/-- An opening gives out the next id and puts its escrow on record. -/
theorem records_of_initiate (h : IsSound v.store) (inMemory : m.Addressable)
    (hopened : (Vault.initiate cfg m).result v = .ok id) :
    (∃ n, Ledger.lastId v.store = .ok n ∧ id = toString (n + 1)) ∧
      Records ((Action.initiate m inMemory).after cfg v) m id .pending := by
  have heffect := effect cfg h.wellKeyed (.initiate m inMemory)
  rw [Action.written?_initiate hopened] at heffect
  generalize hid : m.escrow id = e at heffect
  generalize (Action.initiate m inMemory).after cfg v = v' at heffect
  cases heffect with
  | @opened _ _ account bank n hcoin hsender hholder hsend hlast hn =>
      obtain rfl : id = toString (n + 1) := congrArg Escrow.id hid
      have hstored := Stored.opened v.store inMemory (Coin.of_check hcoin).1 hn
      exact ⟨⟨n, hlast, rfl⟩, hstored.byId,
        (Depositors.find_opened m (n + 1) v.store _).trans (if_pos rfl)⟩

/-- In any run from an empty store: the ids that openings return count up from one, and the escrow
of each lives on from there. -/
theorem lifecycle (cfg : Config) (bank : β) (earlier later : List Action)
    (inMemory : m.Addressable)
    (hopened : (Vault.initiate cfg m).result (run cfg earlier ⟨.empty, bank⟩) = .ok id) :
    id = toString (openings (log cfg earlier ⟨.empty, bank⟩) + 1) ∧
      Life cfg m id ((Action.initiate m inMemory).after cfg (run cfg earlier ⟨.empty, bank⟩))
        later := by
  have hsound := sound_run cfg bank earlier
  obtain ⟨⟨n, hlast, hid⟩, hrecords⟩ := records_of_initiate ⟨_, hsound⟩ inMemory hopened
  have hcount : openings (log cfg earlier ⟨.empty, bank⟩) = n :=
    Except.ok.inj (hsound.lastId.symm.trans hlast)
  refine ⟨by rw [hcount, hid], hrecords.life ?_ later⟩
  exact isSound_after cfg ⟨_, hsound⟩ _

/-- An escrow behind another one is canceled, which is the end of it. -/
theorem lifecycle_one_cancellation :
    let sender := "maany190vqdjtlpcq27xslcveglfmr4ynfwg7g9637yr"
    let coin : Coin := ⟨"umaany", ⟨100, by decide⟩⟩
    let m : Initiate := ⟨sender, "dex-1", coin, "", 7, 9⟩
    let bank := (Balances.empty "maany").set sender ⟨"umaany", ⟨200, by decide⟩⟩
    let earlier := [
      Action.initiate ⟨sender, "dex-2", coin, "", 0, 0⟩ ⟨by decide, by decide⟩,
      Action.initiate ⟨sender, "dex-1", ⟨"umaany", ⟨101, by decide⟩⟩, "", 0, 0⟩
        ⟨by decide, by decide⟩]
    let opened := (initiate {} m).after (run {} earlier ⟨.empty, bank⟩)
    let request : Cancel := ⟨sender, "dex-1", "umaany"⟩
    let canceled := (Action.cancel request).after {} opened
    (initiate {} m).result (run {} earlier ⟨.empty, bank⟩) = .ok "2" ∧
      "2" = toString (openings (log {} earlier ⟨.empty, bank⟩) + 1) ∧
      Life {} m "2" opened [.cancel request] ∧ Records opened m "2" .pending ∧
      (Action.cancel request).Settles {} opened "2" sender .canceled ∧
      (∀ rest, Records (run {} rest canceled) m "2" .canceled) ∧
      ∀ c : Claim, c.escrowId = "2" → (Vault.claim c).result canceled = .error .unauthorized := by
  intro sender coin m bank earlier opened request canceled
  have hruns : (initiate {} m).result (run {} earlier ⟨.empty, bank⟩) = .ok "2" ∧
      Ledger.byRoute opened.store request.chain request.denom = .ok (some (m.escrow "2")) ∧
      (Vault.cancel {} request).result opened = .ok ((m.escrow "2").settle .canceled) := by
    decide +kernel
  obtain ⟨hopened, hleads, hdone⟩ := hruns
  have hsettles : (Action.cancel request).Settles {} opened "2" sender .canceled :=
    .canceled hleads rfl rfl hdone
  obtain ⟨hid, hlife⟩ := lifecycle {} bank earlier [.cancel request] ⟨by decide, by decide⟩ hopened
  obtain ⟨-, hstart⟩ := lifecycle {} bank earlier [] ⟨by decide, by decide⟩ hopened
  obtain ⟨first, hfirst⟩ := hstart.now
  obtain ⟨-, hcanceled⟩ := hfirst.settled (.cancel request) .canceled hsettles
  obtain ⟨status, hstage⟩ := hlife.now
  obtain rfl : status = .canceled := hstage.recorded.status_eq hcanceled
  obtain ⟨hrest, hclaims⟩ := hstage.final (by decide)
  exact ⟨hopened, hid, hlife, hlife.pending, hsettles, hrest, hclaims⟩

end Custody.Vault
