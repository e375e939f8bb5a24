import Mathlib.Control.Monad.Basic
import Custody.Bank.Balances
import Custody.Proofs.Ibc.Run
import Custody.Proofs.Ledger.Sound

/-!
# The representation of the ledger

What the store of a world that started out empty holds of escrows, key by key, and what follows for
the look-ups.
-/

namespace Custody

open Store (Key.counter Key.escrow Key.route Key.depositor)

/-! ## Every operation keeps the ledger sound -/

namespace Ledger

section Operations

variable {β : Type} (cfg : Config) {v : Vault β}

theorem IsSound.initiate [Custodian β] (h : IsSound v.store) {m : Initiate} (hmemory : m.Addressable) :
    IsSound ((Vault.initiate cfg m).after v).store := by
  have houtcome := Vault.initiate_outcome cfg m v
  unfold Operation.after
  generalize Vault.initiate cfg m v = r at houtcome
  cases houtcome with
  | refused e => exact h
  | stranded e hholder hsend => exact h
  | opened hcoin hholder hsend hlast hn => exact h.opened hlast hn hmemory hcoin

theorem IsSound.cancel [Custodian β] (h : IsSound v.store) (m : Cancel) :
    IsSound ((Vault.cancel cfg m).after v).store := by
  have houtcome := Vault.cancel_outcome cfg m v
  unfold Operation.after
  generalize Vault.cancel cfg m v = r at houtcome
  cases houtcome with
  | refused he => exact h
  | homeless hholder => exact h
  | unpaid hfound hholder hsend => exact h
  | halfway hfound hholder hsend hid =>
      obtain ⟨hstored, -, -⟩ := h.wellKeyed.pendingOnRoute hfound
      exact absurd hid hstored.id_ne
  | settled hfound howner hholder hsend hid =>
      obtain ⟨hstored, -, -⟩ := h.wellKeyed.pendingOnRoute hfound
      exact h.settle hstored .canceled

theorem IsSound.claim (h : IsSound v.store) (m : Claim) :
    IsSound ((Vault.claim m).after v).store := by
  have houtcome := Vault.claim_outcome m v
  unfold Operation.after
  generalize Vault.claim m v = r at houtcome
  cases houtcome with
  | refused e => exact h
  | halfway hfound hpending hid =>
      obtain ⟨hstored, -⟩ := h.wellKeyed.byId_some hfound
      exact absurd hid hstored.id_ne
  | settled hfound hpending hid =>
      obtain ⟨hstored, -⟩ := h.wellKeyed.byId_some hfound
      exact h.settle hstored .claimed

end Operations

end Ledger

namespace Ibc

variable {β ω : Type} [Custodian β] {cfg : Config} {app : Application β ω}

theorem isSound_step (happ : SparesLedger app) (step : Step) (w : World β ω)
    (hw : Ledger.IsSound w.vault.store) : Ledger.IsSound (step.after cfg app w).vault.store := by
  cases step with
  | initiate m hmemory =>
      exact keeps_onVault (P := fun v => Ledger.IsSound v.store)
        (fun v hv => hv.initiate cfg hmemory) w hw
  | cancel m =>
      exact keeps_onVault (P := fun v => Ledger.IsSound v.store) (fun v hv => hv.cancel cfg m) w hw
  | claim m =>
      exact keeps_onVault (P := fun v => Ledger.IsSound v.store) (fun v hv => hv.claim m) w hw
  | callback layers c =>
      have hkeeps : Operation.Keeps (fun w => Ledger.IsSound w.vault.store)
          (stack cfg layers app c) := by
        apply keeps_stack
        · exact ⟨fun w requests hw => hw, fun w s hsame hw => hw.congr hsame,
            fun w p relayer escrow receiver coin bank hc hescrow hsend hw => hw⟩
        · intro w hw
          exact hw.congr (happ c w)
      exact hkeeps w hw

end Ibc

/-! ## The representation, key by key -/

namespace Ledger

/-- What is kept under each family of keys when `n` ids have been given out. -/
structure Represented (s : Store) (n : Nat) : Prop where
  /-- No counter, or eight bytes of it. -/
  counter : n = 0 ∧ s.get Key.counter = none ∨
    0 < n ∧ n < UInt64.size ∧ s.get Key.counter = some (Bytes.bigEndian n 8)
  /-- Records stand under the decimal forms of the ids, and nothing else does. -/
  ids : ∀ name, (s.get (0x01 :: name)).isSome ↔
    ∃ k, 1 ≤ k ∧ k ≤ n ∧ name = Bytes.ofString (toString k)
  /-- Each record is that of a proper escrow with this id, which has a depositor and whose route
  has an entry. -/
  record : ∀ k, 1 ≤ k → k ≤ n → ∃ b e, s.get (Key.escrow (toString k)) = some b ∧
    Escrow.decode b = .ok e ∧ e.id = toString k ∧ Coin.checkDenom e.amount.denom = .ok () ∧
    0 < e.amount.amount.val ∧ (∃ owner, Depositors.find? s (toString k) = .ok (some owner)) ∧
    (s.get (Key.route e.chain e.amount.denom)).isSome
  /-- An entry of the index belongs to one route, and leads to an escrow on that route. -/
  index : ∀ name b, s.get (0x02 :: name) = some b → ∃ chain denom,
    0x02 :: name = Key.route chain denom ∧ Coin.checkDenom denom = .ok () ∧
    (∀ chain' denom', Coin.checkDenom denom' = .ok () → 0x02 :: name = Key.route chain' denom' →
      chain' = chain ∧ denom' = denom) ∧
    ∃ id e, b = Bytes.ofString id ∧ byId s id = .ok (some e) ∧ e.chain = chain ∧
      e.amount.denom = denom

theorem checkDenom_of_valid {denom : String} (h : Coin.validDenom denom) :
    Coin.checkDenom denom = .ok () :=
  if_pos h

theorem Sound.represented {s : Store} {n : Nat} (h : Sound s n) : Represented s n where
  counter := by
    have hcounter := h.counter
    split at hcounter
    · rename_i hzero
      exact .inl ⟨hzero, hcounter⟩
    · rename_i hpos
      exact .inr ⟨Nat.pos_of_ne_zero hpos, h.bound, hcounter⟩
  ids name := by
    constructor
    · intro hsome
      obtain ⟨b, hget⟩ := Option.isSome_iff_exists.1 hsome
      obtain ⟨k, e, hlow, hhigh, hid, hname, -⟩ := h.records name b hget
      exact ⟨k, hlow, hhigh, by rw [← hname, hid]⟩
    · rintro ⟨k, hlow, hhigh, rfl⟩
      obtain ⟨e, hid, hkept⟩ := h.present k hlow hhigh
      rw [← hid]
      exact Option.isSome_iff_exists.2 ⟨_, hkept.get⟩
  record k hlow hhigh := by
    obtain ⟨e, hid, hkept⟩ := h.present k hlow hhigh
    rw [← hid]
    exact ⟨e.encode, e, hkept.get, Escrow.decode_encode hkept.addressable, rfl,
      checkDenom_of_valid hkept.denom, hkept.positive, hkept.depositor, hkept.routed⟩
  index name b hget := by
    obtain ⟨e, hroute, hid, hkept⟩ := h.index name b hget
    refine ⟨e.chain, e.amount.denom, hroute, checkDenom_of_valid hkept.denom, ?_,
      e.id, e, hid.symm, hkept.byId, rfl, rfl⟩
    intro chain denom hdenom hsame
    rw [hroute] at hsame
    obtain ⟨hchain, hname⟩ := (Store.Key.route_inj hkept.denom
      (Coin.validDenom_of_checkDenom hdenom)).1 hsame
    exact ⟨hchain.symm, hname.symm⟩

/-! ## Look-ups -/

/-- Looking up a route finds no entry, or the escrow that the entry leads to, which is on it. -/
theorem Sound.byRoute {s : Store} {n : Nat} (h : Sound s n) (chain denom : String) :
    s.get (Key.route chain denom) = none ∧ Ledger.byRoute s chain denom = .ok none ∨
      ∃ e, s.get (Key.route chain denom) = some (Bytes.ofString e.id) ∧
        Ledger.byRoute s chain denom = .ok (some e) ∧
        Key.route e.chain e.amount.denom = Key.route chain denom := by
  rcases h.linked.byRoute chain denom with hnone | ⟨e, hstored, hget, hfound⟩
  · exact .inl hnone
  · obtain ⟨x, hroute, hid, hkept⟩ := h.index _ _ hget
    obtain rfl := hkept.toStored.eq_of_id hstored (Bytes.ofString_injective hid).symm
    exact .inr ⟨e, hget, hfound, hroute.symm⟩

theorem mem_records {s : Store} {start : Option String} {b : Bytes} (h : b ∈ records s start) :
    ∃ name, s.get (0x01 :: name) = some b := by
  unfold records at h
  obtain ⟨⟨key, value⟩, hmem, rfl⟩ := List.mem_map.1 h
  obtain ⟨hget, hlow, hhigh⟩ := Store.mem_range_iff.1 hmem
  have hone : ¬ key < [0x01] := by
    cases start with
    | none => exact hlow
    | some id =>
        intro hbelow
        apply hlow
        cases key with
        | nil => exact List.nil_lt_cons _ _
        | cons x rest =>
            rcases List.cons_lt_cons_iff.1 hbelow with hx | ⟨-, hrest⟩
            · exact List.cons_lt_cons_iff.2 (.inl hx)
            · exact absurd hrest (List.not_lt_nil rest)
  obtain ⟨name, rfl⟩ := mem_records_iff.1 ⟨hone, hhigh⟩
  exact ⟨name, hget⟩

theorem WellKeyed.decode {s : Store} (h : WellKeyed s) {start : Option String} {b : Bytes}
    (hb : b ∈ Ledger.records s start) : ∃ e, Escrow.decode b = .ok e := by
  obtain ⟨name, hget⟩ := mem_records hb
  obtain ⟨e, hstored, hname⟩ := h name b hget
  have hbytes : e.encode = b := by
    have hsame := hstored.get
    rw [Key.escrow, hname, hget] at hsame
    exact (Option.some.inj hsame).symm
  exact ⟨e, by rw [← hbytes]; exact Escrow.decode_encode hstored.addressable⟩

theorem first_ok {keep : Escrow → Bool} {bs : List Bytes}
    (h : ∀ b ∈ bs, ∃ e, Escrow.decode b = .ok e) (count : Nat) :
    ∃ found, first keep count bs = .ok found := by
  induction bs generalizing count with
  | nil => cases count <;> exact ⟨[], rfl⟩
  | cons b bs ih =>
      cases count with
      | zero => exact ⟨[], rfl⟩
      | succ count =>
          obtain ⟨e, hdecode⟩ := h b List.mem_cons_self
          have hrest := ih fun x hx => h x (List.mem_cons_of_mem _ hx)
          unfold first
          rw [hdecode]
          change ∃ found, (if keep e then (first keep count bs).map (e :: ·) else
            first keep (count + 1) bs) = .ok found
          split
          · obtain ⟨found, hfound⟩ := hrest count
            rw [hfound]
            exact ⟨e :: found, rfl⟩
          · exact hrest (count + 1)

end Ledger

namespace Ibc

open Ledger (Represented byId byRoute records first)

variable {β ω : Type} [Custodian β] {cfg : Config} {app : Application β ω}

/-- From an empty store, after any steps: the store is represented key by key as it should be, a
look-up by id or by route does not fail, an entry for a route leads to an escrow on that route, and
every record that is gone through is read. -/
theorem ledger_represented (happ : SparesLedger app) (bank : β) (requests : List Request) (a : ω)
    (steps : List Step) :
    let s := (run cfg app steps ⟨⟨.empty, bank⟩, requests, a⟩).vault.store
    (∃ n, Represented s n) ∧
    (∀ id, ∃ found, byId s id = .ok found) ∧
    (∀ chain denom,
      s.get (Key.route chain denom) = none ∧ byRoute s chain denom = .ok none ∨
      ∃ e, s.get (Key.route chain denom) = some (Bytes.ofString e.id) ∧
        byRoute s chain denom = .ok (some e) ∧
        Key.route e.chain e.amount.denom = Key.route chain denom) ∧
    (∀ start, ∀ b ∈ records s start, ∃ e, Escrow.decode b = .ok e) ∧
    ∀ keep count start, ∃ found, first keep count (records s start) = .ok found := by
  intro s
  have hsound : Ledger.IsSound s := by
    apply run_keeps (P := fun w => Ledger.IsSound w.vault.store)
    · intro step hstep w hw
      exact isSound_step happ step w hw
    · exact ⟨0, Ledger.Sound.empty⟩
  obtain ⟨n, hn⟩ := hsound
  refine ⟨⟨n, hn.represented⟩, ?_, hn.byRoute, ?_, ?_⟩
  · intro id
    rcases hn.wellKeyed.byId id with hnone | ⟨e, hsome, -, -⟩
    · exact ⟨none, hnone⟩
    · exact ⟨some e, hsome⟩
  · intro start b hb
    exact hn.wellKeyed.decode hb
  · intro keep count start
    exact Ledger.first_ok (fun b hb => hn.wellKeyed.decode hb) count

theorem ledger_represented_two_chains :
    let sender := "maany190vqdjtlpcq27xslcveglfmr4ynfwg7g9637yr"
    let coin : Coin := ⟨"umaany", ⟨50, by decide⟩⟩
    let steps := [
      Step.initiate ⟨sender, "a\x00b", coin, "", 0, 0⟩ ⟨by decide, by decide⟩,
      Step.initiate ⟨sender, "a", coin, "", 0, 0⟩ ⟨by decide, by decide⟩]
    let bank := (Balances.empty "maany").set sender ⟨"umaany", ⟨100, by decide⟩⟩
    let s := (run {} (recorder false) steps ⟨⟨.empty, bank⟩, [], []⟩).vault.store
    Ledger.lastId s = .ok 2 ∧ ∃ n, Represented s n := by
  intro sender coin steps bank s
  refine ⟨by decide +kernel, ?_⟩
  exact (ledger_represented (sparesLedger_recorder false) bank [] [] steps).1

end Ibc

end Custody
