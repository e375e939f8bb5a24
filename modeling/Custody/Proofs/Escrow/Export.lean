import Custody.Bank.Balances
import Custody.Escrow.Export
import Custody.Proofs.Escrow.Run

/-!
# Proof material is what is committed

The value of the material is not the committed one but an escrow that was read and written again. It
is the committed one nevertheless: an escrow has one committed form only, and however records have
been written, the route index leads to records under their own ids.
-/

namespace Custody

open Store (Key.escrow Key.route)

/-! ## Any changes of the records -/

namespace Vault

open Ledger (Linked Stored)

variable {β : Type}

/-- An escrow is written as it stands, or an operation runs under a configuration. -/
inductive Change where
  | put (e : Escrow) (inMemory : e.Addressable) (named : e.id ≠ "")
  | act (cfg : Config) (a : Action)

variable [Custodian β]

/-- The vault after a change, whether or not it failed. -/
def Change.after : Change → Vault β → Vault β
  | .put e _ _ => (Vault.onStore (Ledger.put e)).after
  | .act cfg a => a.after cfg

/-- The vault after all changes. -/
def changed (changes : List Change) (v : Vault β) : Vault β :=
  changes.foldl (fun v c => c.after v) v

theorem linked_put {e : Escrow} (inMemory : e.Addressable) (named : e.id ≠ "") {v : Vault β}
    (h : Linked v.store) : Linked ((Change.put e inMemory named).after v).store := by
  change Linked ((Vault.onStore (Ledger.put e)).after v).store
  unfold Vault.onStore
  rw [Operation.after_within, Operation.after_ok (Ledger.put_run named v.store)]
  exact h.entered inMemory named

theorem linked_act (cfg : Config) {v : Vault β} (h : Linked v.store) (a : Action) :
    Linked (a.after cfg v).store := by
  have heffect := effect cfg h.records a
  generalize a.written? cfg v = written at heffect
  generalize a.after cfg v = v' at heffect
  cases heffect with
  | refused a => exact h
  -- The funds have moved, but no id could be given out: the store is the old one.
  | stranded hholder hsend => exact h
  | @opened m inMemory account bank n hcoin hsender hholder hsend hlast hn =>
      exact h.opened (Stored.opened v.store inMemory (Coin.of_check hcoin).1 hn)
  | canceled hstored hpending hrouted howner hholder hsend =>
      exact h.entered (hstored.settle .canceled).addressable hstored.id_ne
  | claimed hstored hpending hid =>
      exact h.entered (hstored.settle .claimed).addressable hstored.id_ne

theorem linked_changed {v : Vault β} (h : Linked v.store) (changes : List Change) :
    Linked (changed changes v).store := by
  induction changes generalizing v with
  | nil => exact h
  | cons c changes ih =>
      cases c with
      | put e inMemory named => exact ih (linked_put inMemory named h)
      | act cfg a => exact ih (linked_act cfg h a)

end Vault

/-! ## What is described -/

/-- The material is about the committed record that a route leads to: the bytes, where they are kept,
and the amount that is read from them. -/
structure ProofMaterial.Faithful (s : Store) (cfg : Config) (chain denom : String) (now : UInt64)
    (p : ProofMaterial) : Prop where
  height : p.height = now
  routed : s.get (Key.route chain denom) = some (Bytes.ofString p.escrowId)
  committed : s.get (0x01 :: Bytes.ofString p.escrowId) = some p.value
  /-- The name of the store, and the key in hexadecimal with its letters in lower case. -/
  keyPath : ∃ key, p.keyPath = [cfg.storeKey, key] ∧
    Bytes.ofHex? key = some (0x01 :: Bytes.ofString p.escrowId)
  amount : ∃ e, Escrow.decode p.value = .ok e ∧ e.id = p.escrowId ∧ e.amount = p.amount

namespace Export

open Ledger (Linked Stored)

variable {s : Store} {cfg : Config} {chain denom : String} {height now : UInt64} {e : Escrow}
  {p : ProofMaterial}

/-- What is exported of an escrow. -/
def material (cfg : Config) (now : UInt64) (e : Escrow) : ProofMaterial where
  height := now
  value := e.encode
  keyPath := [cfg.storeKey, (Key.escrow e.id).hex]
  escrowId := e.id
  amount := e.amount

theorem describe_blank (hblank : Text.allBlank chain ∨ Text.allBlank denom) :
    ∃ why, describe s cfg chain denom height now = .error why := by
  unfold describe requireNonBlank
  by_cases hchain : Text.allBlank chain
  · rw [if_pos hchain]
    exact ⟨_, rfl⟩
  · rw [if_neg hchain, if_pos (hblank.resolve_left hchain)]
    exact ⟨_, rfl⟩

/-- Once the route is named, only the height and what the route leads to count. -/
theorem describe_named (hchain : ¬ Text.allBlank chain) (hdenom : ¬ Text.allBlank denom) :
    describe s cfg chain denom height now =
      if height ≠ 0 ∧ height ≠ now then .ok (.rejected height now)
      else Ledger.byRoute s chain denom >>= fun
        | none => .error (.notFound (.escrowOnRoute chain denom))
        | some e => if e.id = "" then .error (.internal .escrowWithoutId)
          else .ok (.current (material cfg now e)) := by
  unfold describe requireNonBlank
  rw [if_neg hchain, if_neg hdenom]
  rfl

/-- At the current height a route without an entry is not found, and of any other the escrow is
described that its entry leads to. -/
theorem describe_served (cfg : Config) (h : Linked s) (hchain : ¬ Text.allBlank chain)
    (hdenom : ¬ Text.allBlank denom) (hheight : height = 0 ∨ height = now) :
    s.get (Key.route chain denom) = none ∧
        describe s cfg chain denom height now = .error (.notFound (.escrowOnRoute chain denom)) ∨
      ∃ e, Stored s e ∧ s.get (Key.route chain denom) = some (Bytes.ofString e.id) ∧
        describe s cfg chain denom height now = .ok (.current (material cfg now e)) := by
  have hserved : ¬ (height ≠ 0 ∧ height ≠ now) := by
    rintro ⟨hgiven, hother⟩
    exact hheight.elim hgiven hother
  rw [describe_named hchain hdenom, if_neg hserved]
  rcases h.byRoute chain denom with ⟨hget, hroute⟩ | ⟨e, hstored, hget, hroute⟩
  · left
    rw [hroute]
    exact ⟨hget, rfl⟩
  · right
    refine ⟨e, hstored, hget, ?_⟩
    rw [hroute]
    exact if_neg hstored.id_ne

theorem faithful_material (hstored : Stored s e)
    (hrouted : s.get (Key.route chain denom) = some (Bytes.ofString e.id)) :
    (material cfg now e).Faithful s cfg chain denom now where
  height := rfl
  routed := hrouted
  committed := hstored.get
  keyPath := ⟨_, rfl, Bytes.ofHex?_hex _⟩
  amount := ⟨e, Escrow.decode_encode hstored.addressable, rfl, rfl⟩

/-- Material is given out exactly if the height is served and the route has an entry. -/
theorem exists_current_iff (h : Linked s) (hchain : ¬ Text.allBlank chain)
    (hdenom : ¬ Text.allBlank denom) :
    (∃ p, describe s cfg chain denom height now = .ok (.current p)) ↔
      (height = 0 ∨ height = now) ∧ (s.get (Key.route chain denom)).isSome := by
  by_cases hheight : height = 0 ∨ height = now
  · rcases describe_served cfg h hchain hdenom hheight with
      ⟨hget, hdescribe⟩ | ⟨e, hstored, hget, hdescribe⟩
    · rw [hdescribe, hget]
      simp
    · rw [hdescribe, hget]
      simp [hheight]
  · have hother : height ≠ 0 ∧ height ≠ now := not_or.1 hheight
    rw [describe_named hchain hdenom, if_pos hother]
    simp [hheight]

theorem faithful_of_current (h : Linked s)
    (hcurrent : describe s cfg chain denom height now = .ok (.current p)) :
    (height = 0 ∨ height = now) ∧ p.Faithful s cfg chain denom now := by
  by_cases hblank : Text.allBlank chain ∨ Text.allBlank denom
  · obtain ⟨why, herror⟩ : ∃ why, describe s cfg chain denom height now = .error why :=
      describe_blank hblank
    cases herror.symm.trans hcurrent
  · obtain ⟨hchain, hdenom⟩ := not_or.1 hblank
    obtain ⟨hheight, -⟩ := (exists_current_iff h hchain hdenom).1 ⟨p, hcurrent⟩
    rcases describe_served cfg h hchain hdenom hheight with
      ⟨hget, hdescribe⟩ | ⟨e, hstored, hget, hdescribe⟩
    · cases hdescribe.symm.trans hcurrent
    · cases hdescribe.symm.trans hcurrent
      exact ⟨hheight, faithful_material hstored hget⟩

/-- After any changes of an empty store, under any configuration: what is given out is at the height
asked for and says what is committed. For a route that is not blank, another height is rejected, and
material is given out exactly at the current height and if the index has an entry for the route. -/
theorem material_faithful {β : Type} [Custodian β] (bank : β) (changes : List Vault.Change)
    (cfg : Config) (chain denom : String) (height now : UInt64) :
    let s := (Vault.changed changes ⟨.empty, bank⟩).store
    let described := describe s cfg chain denom height now
    (∀ p, described = .ok (.current p) →
      (height = 0 ∨ height = now) ∧ p.Faithful s cfg chain denom now) ∧
    (¬ Text.allBlank chain → ¬ Text.allBlank denom →
      (height ≠ 0 → height ≠ now → described = .ok (.rejected height now)) ∧
      ((∃ p, described = .ok (.current p)) ↔
        (height = 0 ∨ height = now) ∧ (s.get (Key.route chain denom)).isSome)) := by
  intro s described
  have hlinked : Linked s := Vault.linked_changed (v := ⟨.empty, bank⟩) Linked.empty changes
  constructor
  · intro p hcurrent
    exact faithful_of_current hlinked hcurrent
  · intro hchain hdenom
    refine ⟨?_, exists_current_iff hlinked hchain hdenom⟩
    intro hgiven hother
    exact (describe_named hchain hdenom).trans (if_pos ⟨hgiven, hother⟩)

/-- Two routes share an entry of the index: asked for the first, the material is of the second. -/
theorem material_faithful_shared_entry :
    let first : Escrow := ⟨"1", "dex\x00a", ⟨"b", ⟨5, by decide⟩⟩, "", 0, 0, .pending⟩
    let second : Escrow := ⟨"2", "dex", ⟨"a\x00b", ⟨7, by decide⟩⟩, "", 0, 0, .claimed⟩
    let changes := [
      Vault.Change.put first ⟨by decide, by decide, by decide, by decide⟩ (by decide),
      Vault.Change.put second ⟨by decide, by decide, by decide, by decide⟩ (by decide)]
    let s := (Vault.changed changes (⟨.empty, .empty "maany"⟩ : Vault Balances)).store
    ∃ p, describe s {} "dex\x00a" "b" 0 9 = .ok (.current p) ∧ p.escrowId = "2" ∧
      p.Faithful s {} "dex\x00a" "b" 9 := by
  intro first second changes s
  have hentry : s.get (Key.route "dex\x00a" "b") = some (Bytes.ofString "2") := by decide +kernel
  obtain ⟨hfaithful, hserved⟩ :=
    material_faithful (Balances.empty "maany") changes {} "dex\x00a" "b" 0 9
  obtain ⟨p, hcurrent⟩ := (hserved (by decide) (by decide)).2.2 ⟨.inl rfl, hentry ▸ rfl⟩
  obtain ⟨-, hp⟩ := hfaithful p hcurrent
  have hid : p.escrowId = "2" := Bytes.ofString_inj.1 (Option.some.inj (hp.routed.symm.trans hentry))
  exact ⟨p, hcurrent, hid, hp⟩

end Export

end Custody
