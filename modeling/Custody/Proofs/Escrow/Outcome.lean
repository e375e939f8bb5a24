import Custody.Escrow.Lifecycle
import Custody.Proofs.Operation

/-!
# What the three operations can do

Every run of an operation on escrows, from any vault, ends in one of a few ways. The outcomes list
them: what the run has found out, and what it leaves behind.
-/

namespace Custody

open Store (Key.escrow Key.route Key.counter)

namespace Ledger

/-- The store with a record written down and its route pointed at it. -/
def entered (e : Escrow) (s : Store) : Store :=
  (s.insert (Key.escrow e.id) e.encode).insert (Key.route e.chain e.amount.denom)
    (Bytes.ofString e.id)

theorem put_run {e : Escrow} (hid : e.id ≠ "") (s : Store) :
    put e s = .ok () (entered e s) := by
  have hvalue : Bytes.ofString e.id ≠ [] := fun h => hid (Bytes.ofString_injective h)
  unfold put Store.save
  rw [Operation.bind_ok (Operation.modify_run _ s), if_neg hvalue]
  rfl

/-- Without an id the record is written, but its route cannot point at it. -/
theorem put_run_blank {e : Escrow} (hid : e.id = "") (s : Store) :
    put e s = .error (.aborted .emptyValue) (s.insert (Key.escrow e.id) e.encode) := by
  unfold put Store.save
  rw [Operation.bind_ok (Operation.modify_run _ s), hid]
  rfl

/-- The store after an id has been given out. -/
def counted (n : Nat) (s : Store) : Store := s.insert Key.counter (Bytes.bigEndian n 8)

theorem nextId_run {s : Store} {n : Nat} (hlast : lastId s = .ok n) (hn : n + 1 < UInt64.size) :
    nextId s = .ok (toString (n + 1)) (counted (n + 1) s) := by
  unfold nextId
  rw [Operation.bind_ok (Operation.reading_ok hlast)]
  simp only [if_pos hn]
  rfl

/-- There is an id to give out, or else the store stays as it was. -/
theorem nextId_cases (s : Store) :
    (∃ n, lastId s = .ok n ∧ n + 1 < UInt64.size) ∨ ∃ e, nextId s = .error e s := by
  unfold nextId
  cases hlast : lastId s with
  | error e => exact .inr ⟨e, Operation.bind_error (Operation.reading_error hlast)⟩
  | ok n =>
      by_cases hn : n + 1 < UInt64.size
      · exact .inl ⟨n, rfl, hn⟩
      · right
        rw [Operation.bind_ok (Operation.reading_ok hlast)]
        simp only [if_neg hn]
        exact ⟨_, rfl⟩

end Ledger

theorem Address.eq_of_validate {hrp address account : String}
    (h : validate hrp address = .ok account) : account = address := by
  unfold validate at h
  cases hpayload : payload hrp address with
  | error e =>
      rw [hpayload] at h
      cases h
  | ok raw =>
      rw [hpayload] at h
      cases h
      rfl

theorem eq_of_requireAddress {hrp address account : String}
    (h : requireAddress hrp address = .ok account) : account = address := by
  unfold requireAddress at h
  cases hvalid : Address.validate hrp address with
  | error e =>
      rw [hvalid] at h
      cases h
  | ok a =>
      rw [hvalid] at h
      cases h
      exact Address.eq_of_validate hvalid

theorem requireCoin_ok {c : Coin} {u : Unit} (h : requireCoin c = .ok u) : c.check = .ok () := by
  unfold requireCoin at h
  cases hcheck : c.check with
  | error e =>
      rw [hcheck] at h
      cases h
  | ok u => rfl

theorem requireDenom_eq_ok {denom : String} {u : Unit} :
    requireDenom denom = .ok u ↔ Coin.validDenom denom := by
  unfold requireDenom Coin.checkDenom
  by_cases hvalid : Coin.validDenom denom
  · rw [if_pos hvalid]
    exact iff_of_true rfl hvalid
  · rw [if_neg hvalid]
    exact iff_of_false (fun h => nomatch h) hvalid

/-- The pending escrow that a message asks for, under an id. -/
def Initiate.escrow (m : Initiate) (id : String) : Escrow where
  id
  chain := m.chain
  amount := m.amount
  recipient := m.recipient
  expiryHeight := m.expiryHeight
  expiryTime := m.expiryTime
  status := .pending

namespace Escrow

/-- The escrow once it is claimed or canceled. -/
def settle (e : Escrow) (status : Status) : Escrow := { e with status }

@[simp] theorem settle_id (e : Escrow) (status : Status) : (e.settle status).id = e.id := rfl

@[simp] theorem settle_amount (e : Escrow) (status : Status) :
    (e.settle status).amount = e.amount := rfl

@[simp] theorem settle_status (e : Escrow) (status : Status) :
    (e.settle status).status = status := rfl

end Escrow

namespace Vault

variable {β : Type}

theorem onStore_ok {x : Operation Store α} {v : Vault β} {a : α} {s : Store}
    (h : x v.store = .ok a s) : onStore x v = .ok a { v with store := s } :=
  Operation.within_ok h

theorem onStore_error {x : Operation Store α} {v : Vault β} {e : Error} {s : Store}
    (h : x v.store = .error e s) : onStore x v = .error e { v with store := s } :=
  Operation.within_error h

theorem readingStore_ok {f : Store → Except Error α} {v : Vault β} {a : α}
    (h : f v.store = .ok a) : readingStore f v = .ok a v :=
  Operation.reading_ok h

theorem readingStore_error {f : Store → Except Error α} {v : Vault β} {e : Error}
    (h : f v.store = .error e) : readingStore f v = .error e v :=
  Operation.reading_error h

/-- The store once escrow `n` has been opened for the sender of the message. -/
def opened (m : Initiate) (n : Nat) (s : Store) : Store :=
  Depositors.insert (Ledger.entered (m.escrow (toString n)) (Ledger.counted n s)) (toString n)
    m.sender

/-- What initiating does once the funds are in custody. -/
def enter (m : Initiate) : Operation (Vault β) String := do
  let id ← onStore Ledger.nextId
  onStore (Ledger.put (m.escrow id))
  onStore (modify (Depositors.insert · id m.sender))
  return id

theorem enter_run {m : Initiate} {v : Vault β} {n : Nat} (hlast : Ledger.lastId v.store = .ok n)
    (hn : n + 1 < UInt64.size) :
    enter m v = .ok (toString (n + 1)) { v with store := opened m (n + 1) v.store } := by
  have hid : (m.escrow (toString (n + 1))).id ≠ "" := Nat.repr_ne_empty
  unfold enter
  rw [Operation.bind_ok (onStore_ok (Ledger.nextId_run hlast hn)),
    Operation.bind_ok (onStore_ok (Ledger.put_run hid _))]
  rfl

theorem enter_refused {m : Initiate} {v : Vault β} {e : Error}
    (h : Ledger.nextId v.store = .error e v.store) : enter m v = .error e v :=
  Operation.bind_error (onStore_error h)

/-- Records the end of an escrow. -/
def mark (e : Escrow) (status : Status) : Operation (Vault β) Escrow := do
  onStore (Ledger.put (e.settle status))
  return e.settle status

theorem mark_run {e : Escrow} (hid : e.id ≠ "") (status : Status) (v : Vault β) :
    mark e status v =
      .ok (e.settle status) { v with store := Ledger.entered (e.settle status) v.store } :=
  Operation.bind_ok (onStore_ok (Ledger.put_run (e := e.settle status) hid v.store))

theorem mark_run_blank {e : Escrow} (hid : e.id = "") (status : Status) (v : Vault β) :
    mark e status v = .error (.aborted .emptyValue)
      { v with store := v.store.insert (Key.escrow e.id) (e.settle status).encode } :=
  Operation.bind_error (onStore_error (Ledger.put_run_blank (e := e.settle status) hid v.store))

variable [Custodian β]

theorem send_ok {v : Vault β} {source target : Address} {c : Coin} {bank : β}
    (h : Custodian.send v.bank source target c = .ok bank) :
    send source target c v = .ok () { v with bank } := by
  unfold send
  rw [h]

theorem send_error {v : Vault β} {source target : Address} {c : Coin} {e : Error}
    (h : Custodian.send v.bank source target c = .error e) :
    send source target c v = .error e v := by
  unfold send
  rw [h]

/-- The account that holds the funds in custody, as the bank of a vault has it. -/
def holder (cfg : Config) (v : Vault β) : Except Error Address :=
  Custodian.moduleAddress v.bank cfg.moduleName

theorem custody_ok {cfg : Config} {v : Vault β} {account : Address}
    (h : v.holder cfg = .ok account) : custody cfg v = .ok account v :=
  Operation.reading_ok h

theorem custody_error {cfg : Config} {v : Vault β} {e : Error} (h : v.holder cfg = .error e) :
    custody cfg v = .error e v :=
  Operation.reading_error h

/-! ## Initiating -/

/-- How a run of `initiate` ends. The funds may have moved without an id being left to give. -/
inductive InitiateOutcome (cfg : Config) (m : Initiate) (v : Vault β) :
    EStateM.Result Error (Vault β) String → Prop
  | refused (e : Error) : InitiateOutcome cfg m v (.error e v)
  | stranded (e : Error) {account : Address} {bank : β} (hholder : v.holder cfg = .ok account)
      (hsend : Custodian.send v.bank m.sender account m.amount = .ok bank)
      (hnone : Ledger.nextId v.store = .error e v.store) :
      InitiateOutcome cfg m v (.error e { v with bank })
  | opened {account : Address} {bank : β} {n : Nat} (hcoin : m.amount.check = .ok ())
      (hholder : v.holder cfg = .ok account)
      (hsend : Custodian.send v.bank m.sender account m.amount = .ok bank)
      (hlast : Ledger.lastId v.store = .ok n) (hn : n + 1 < UInt64.size) :
      InitiateOutcome cfg m v (.ok (toString (n + 1)) ⟨opened m (n + 1) v.store, bank⟩)

theorem initiate_outcome (cfg : Config) (m : Initiate) (v : Vault β) :
    InitiateOutcome cfg m v (initiate cfg m v) := by
  unfold initiate
  rcases hcoin : requireCoin m.amount with e | u
  · rw [Operation.bind_error (Operation.lift_error rfl)]
    exact .refused e
  rw [Operation.bind_ok (Operation.lift_ok rfl)]
  rcases hsender : requireAddress cfg.hrp m.sender with e | sender
  · rw [Operation.bind_error (Operation.lift_error rfl)]
    exact .refused e
  obtain rfl := eq_of_requireAddress hsender
  rw [Operation.bind_ok (Operation.lift_ok rfl)]
  rcases hholder : v.holder cfg with e | account
  · rw [Operation.bind_error (custody_error hholder)]
    exact .refused e
  rw [Operation.bind_ok (custody_ok hholder)]
  rcases hsend : Custodian.send v.bank m.sender account m.amount with e | bank
  · rw [Operation.bind_error (send_error hsend)]
    exact .refused e
  rw [Operation.bind_ok (send_ok hsend)]
  change InitiateOutcome cfg m v (enter m { v with bank })
  rcases Ledger.nextId_cases v.store with ⟨n, hlast, hn⟩ | ⟨e, hnone⟩
  · rw [enter_run (v := { v with bank }) hlast hn]
    exact .opened (requireCoin_ok hcoin) hholder hsend hlast hn
  · rw [enter_refused (v := { v with bank }) hnone]
    exact .stranded e hholder hsend hnone

end Vault

/-! ## Canceling -/

/-- A fault of the bank, not of a request or a record. -/
def Error.OfPayment : Error → Prop
  | .payment _ => True
  | _ => False

open Operation (Faults)

/-- Not the bank's fault. -/
abbrev Error.NotOfPayment (e : Error) : Prop := ¬ e.OfPayment

/-- Something is not there, or what is stored there cannot be read. -/
def Error.OfLookup : Error → Prop
  | .notFound _ | .configMissing | .unreadableRecord _ | .invalidAmount _ | .notUtf8 _
  | .unreadableJson | .internal (.counterLength _) => True
  | _ => False

theorem Error.OfLookup.notOfPayment {e : Error} (h : e.OfLookup) : e.NotOfPayment := by
  cases e with
  | payment why => exact h.elim
  | _ => exact not_false

theorem Escrow.faults_decode (b : Bytes) : Faults Error.OfLookup (decode b) := by
  unfold decode
  refine Faults.bind (Faults.mapError _ (fun _ => trivial) _) ?_
  intro r
  unfold ofRecord
  split
  · exact Faults.error trivial
  · refine Faults.bind ?_ fun a => Faults.ok _
    unfold amountOfRecord
    split
    · exact Faults.ok _
    · exact Faults.mapError _ (fun _ => trivial) _

theorem Ledger.faults_byId (s : Store) (id : String) : Faults Error.OfLookup (byId s id) := by
  unfold byId
  split
  · exact Faults.ok none
  · exact Faults.map some (Escrow.faults_decode _)

theorem Ledger.faults_byRoute (s : Store) (chain denom : String) :
    Faults Error.OfLookup (byRoute s chain denom) := by
  unfold byRoute
  split
  · exact Faults.ok none
  · exact Faults.bind (Faults.mapError _ (fun _ => trivial) _) (faults_byId s)

theorem Ledger.faults_lastId (s : Store) : Faults Error.OfLookup (lastId s) := by
  unfold lastId
  split
  · exact Faults.ok 0
  · split
    · exact Faults.ok _
    · exact Faults.error trivial

theorem Depositors.faults_find (s : Store) (id : String) :
    Faults Error.OfLookup (find? s id) := by
  unfold find?
  split
  · exact Faults.ok none
  · split
    · exact Faults.error trivial
    · exact Faults.ok _

namespace Vault

theorem faults_pendingOnRoute (s : Store) (chain denom : String) :
    Faults Error.OfLookup (pendingOnRoute s chain denom) := by
  refine Faults.bind (Ledger.faults_byRoute s chain denom) ?_
  intro found
  cases found with
  | none => exact Faults.error trivial
  | some e =>
      simp only
      split
      · exact Faults.ok e
      · exact Faults.error trivial

/-- The escrow that a route leads to, if it is pending. -/
theorem pendingOnRoute_eq_ok {s : Store} {chain denom : String} {e : Escrow}
    (h : pendingOnRoute s chain denom = .ok e) :
    Ledger.byRoute s chain denom = .ok (some e) ∧ e.status = .pending := by
  unfold pendingOnRoute at h
  cases hroute : Ledger.byRoute s chain denom with
  | error f =>
      rw [hroute] at h
      cases h
  | ok found =>
      rw [hroute] at h
      cases found with
      | none => cases h
      | some x =>
          change (if x.status = .pending then Except.ok x
            else Except.error (Error.notFound (.pendingEscrow chain denom))) = .ok e at h
          split at h
          · rename_i hpending
            cases h
            exact ⟨rfl, hpending⟩
          · cases h

variable {β : Type}

section Canceling

variable [Custodian β]

/-- What canceling does once the depositor is known to be the one who asks. -/
def refund (cfg : Config) (sender : Address) (e : Escrow) : Operation (Vault β) Escrow := do
  let custody ← custody cfg
  send custody sender e.amount
  mark e .canceled

/-- How a run of `cancel` ends. -/
inductive CancelOutcome (cfg : Config) (m : Cancel) (v : Vault β) :
    EStateM.Result Error (Vault β) Escrow → Prop
  | refused {e : Error} (he : e.NotOfPayment) : CancelOutcome cfg m v (.error e v)
  | homeless {e : Error} (hholder : v.holder cfg = .error e) : CancelOutcome cfg m v (.error e v)
  | unpaid {x : Escrow} {account : Address} {e : Error}
      (hfound : pendingOnRoute v.store m.chain m.denom = .ok x)
      (hholder : v.holder cfg = .ok account)
      (hsend : Custodian.send v.bank account m.sender x.amount = .error e) :
      CancelOutcome cfg m v (.error e v)
  | halfway {x : Escrow} {account : Address} {bank : β}
      (hfound : pendingOnRoute v.store m.chain m.denom = .ok x)
      (hholder : v.holder cfg = .ok account)
      (hsend : Custodian.send v.bank account m.sender x.amount = .ok bank) (hid : x.id = "") :
      CancelOutcome cfg m v (.error (.aborted .emptyValue)
        ⟨v.store.insert (Key.escrow x.id) (x.settle .canceled).encode, bank⟩)
  | settled {x : Escrow} {account : Address} {bank : β}
      (hfound : pendingOnRoute v.store m.chain m.denom = .ok x)
      (howner : Depositors.find? v.store x.id = .ok (some m.sender))
      (hholder : v.holder cfg = .ok account)
      (hsend : Custodian.send v.bank account m.sender x.amount = .ok bank) (hid : x.id ≠ "") :
      CancelOutcome cfg m v (.ok (x.settle .canceled)
        ⟨Ledger.entered (x.settle .canceled) v.store, bank⟩)

theorem refund_outcome {cfg : Config} {m : Cancel} {v : Vault β} {x : Escrow}
    (hfound : pendingOnRoute v.store m.chain m.denom = .ok x)
    (howner : Depositors.find? v.store x.id = .ok (some m.sender)) :
    CancelOutcome cfg m v (refund cfg m.sender x v) := by
  unfold refund
  rcases hholder : v.holder cfg with e | account
  · rw [Operation.bind_error (custody_error hholder)]
    exact .homeless hholder
  rw [Operation.bind_ok (custody_ok hholder)]
  rcases hsend : Custodian.send v.bank account m.sender x.amount with e | bank
  · rw [Operation.bind_error (send_error hsend)]
    exact .unpaid hfound hholder hsend
  rw [Operation.bind_ok (send_ok hsend)]
  by_cases hid : x.id = ""
  · rw [mark_run_blank (v := { v with bank }) hid]
    exact .halfway hfound hholder hsend hid
  · rw [mark_run (v := { v with bank }) hid]
    exact .settled hfound howner hholder hsend hid

theorem cancel_outcome (cfg : Config) (m : Cancel) (v : Vault β) :
    CancelOutcome cfg m v (cancel cfg m v) := by
  unfold cancel
  rcases hsender : requireAddress cfg.hrp m.sender with e | sender
  · rw [Operation.bind_error (Operation.lift_error rfl)]
    exact .refused (Faults.mapError _ (fun _ => not_false) _ e hsender)
  obtain rfl := eq_of_requireAddress hsender
  rw [Operation.bind_ok (Operation.lift_ok rfl)]
  rcases hfound : pendingOnRoute v.store m.chain m.denom with e | x
  · rw [Operation.bind_error (readingStore_error hfound)]
    exact .refused (faults_pendingOnRoute _ _ _ e hfound).notOfPayment
  rw [Operation.bind_ok (readingStore_ok hfound)]
  rcases howner : Depositors.find? v.store x.id with e | owner
  · rw [Operation.bind_error (readingStore_error howner)]
    exact .refused (Depositors.faults_find _ _ e howner).notOfPayment
  rw [Operation.bind_ok (readingStore_ok howner)]
  by_cases hsame : owner = some m.sender
  · subst hsame
    rw [if_neg (not_not_intro rfl)]
    exact refund_outcome hfound howner
  · rw [if_pos hsame]
    exact .refused not_false

/-- A cancellation that succeeds is of the escrow that the route leads to. -/
theorem canceled_of_result {cfg : Config} {c : Cancel} {v : Vault β} {x e : Escrow}
    (hrouted : Ledger.byRoute v.store c.chain c.denom = .ok (some x))
    (hdone : (Vault.cancel cfg c).result v = .ok e) :
    pendingOnRoute v.store c.chain c.denom = .ok x ∧
      Depositors.find? v.store x.id = .ok (some c.sender) ∧
      ∃ bank, (Vault.cancel cfg c).after v = ⟨Ledger.entered (x.settle .canceled) v.store, bank⟩ := by
  have houtcome := cancel_outcome cfg c v
  rw [Operation.ok_of_result hdone] at houtcome
  generalize (Vault.cancel cfg c).after v = v' at houtcome
  cases houtcome with
  | @settled y account bank hfound howner hholder hsend hid =>
      have hsame := (pendingOnRoute_eq_ok hfound).1
      rw [hrouted] at hsame
      cases hsame
      exact ⟨hfound, howner, bank, rfl⟩

end Canceling

/-! ## Claiming -/

/-- How a run of `claim` ends. -/
inductive ClaimOutcome (m : Claim) (v : Vault β) : EStateM.Result Error (Vault β) Escrow → Prop
  | refused (e : Error) : ClaimOutcome m v (.error e v)
  | halfway {x : Escrow} (hfound : Ledger.byId v.store m.escrowId = .ok (some x))
      (hpending : x.status = .pending) (hid : x.id = "") :
      ClaimOutcome m v (.error (.aborted .emptyValue)
        ⟨v.store.insert (Key.escrow x.id) (x.settle .claimed).encode, v.bank⟩)
  | settled {x : Escrow} (hfound : Ledger.byId v.store m.escrowId = .ok (some x))
      (hpending : x.status = .pending) (hid : x.id ≠ "") :
      ClaimOutcome m v (.ok (x.settle .claimed)
        ⟨Ledger.entered (x.settle .claimed) v.store, v.bank⟩)

theorem claim_outcome (m : Claim) (v : Vault β) : ClaimOutcome m v (claim m v) := by
  unfold claim
  rcases hfound : Ledger.byId v.store m.escrowId with e | found
  · rw [Operation.bind_error (readingStore_error hfound)]
    exact .refused e
  rw [Operation.bind_ok (readingStore_ok hfound)]
  cases found with
  | none => exact .refused _
  | some x =>
      simp only
      by_cases hpending : x.status = .pending
      · rw [if_neg (not_not_intro hpending)]
        change ClaimOutcome m v (mark x .claimed v)
        by_cases hid : x.id = ""
        · rw [mark_run_blank hid]
          exact .halfway hfound hpending hid
        · rw [mark_run hid]
          exact .settled hfound hpending hid
      · rw [if_pos hpending]
        exact .refused _

theorem claimed_of_result {c : Claim} {v : Vault β} {e : Escrow}
    (hdone : (Vault.claim c).result v = .ok e) :
    ∃ x, Ledger.byId v.store c.escrowId = .ok (some x) ∧ x.status = .pending ∧
      (Vault.claim c).after v = ⟨Ledger.entered (x.settle .claimed) v.store, v.bank⟩ := by
  have houtcome := claim_outcome c v
  rw [Operation.ok_of_result hdone] at houtcome
  generalize (Vault.claim c).after v = v' at houtcome
  cases houtcome with
  | @settled x hfound hpending hid => exact ⟨x, hfound, hpending, rfl⟩

end Vault

end Custody
