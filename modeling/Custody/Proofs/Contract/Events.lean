import Mathlib.Control.Monad.Basic
import Custody.Proofs.Contract.Reached
import Custody.Proofs.Json.Documents

/-!
# The events of calls

A call that succeeds announces an escrow that is on record afterwards. All that is announced is read
off that record, except for the chain of a claim: it is repeated from the request, which need not
name the chain of the escrow.
-/

namespace Custody.Contract

open Ledger (Stored)

/-! ## What a command says in its event -/

namespace Command

def method : Command → String
  | .initiate .. => "escrow_initial"
  | .cancel .. => "cancel_escrow"
  | .claim .. => "mark_escrow_claimed"

/-- The status that the command leaves the escrow in. -/
def outcome : Command → Status
  | .initiate .. => .pending
  | .cancel .. => .canceled
  | .claim .. => .claimed

/-- The chain in the event: of the request for a claim, and otherwise of the escrow. -/
def announcedChain (e : Escrow) : Command → String
  | .claim _ chain => chain
  | _ => e.chain

/-- A claim names the chain of the escrow. The other commands do not choose what is announced. -/
def NamesChain (e : Escrow) : Command → Prop
  | .claim _ chain => chain = e.chain
  | _ => True

theorem announcedChain_eq_iff {command : Command} {e : Escrow} :
    announcedChain e command = e.chain ↔ NamesChain e command := by
  cases command with
  | initiate => exact iff_of_true rfl trivial
  | cancel => exact iff_of_true rfl trivial
  | claim => exact Iff.rfl

end Command

/-- The response tells of an escrow that is on record in the store. -/
structure Announces (command : Command) (r : Response) (t : Store) (e : Escrow) : Prop where
  recorded : Ledger.byId t e.id = .ok (some e)
  status : e.status = Command.outcome command
  attributes : r.attributes = [
    ("method", Command.method command),
    ("escrow_id", e.id),
    ("consumer_chain_id", Command.announcedChain e command),
    ("amount", e.amount.text)]
  data : ∀ {chain amount recipient expiryHeight expiryTime},
    command = .initiate chain amount recipient expiryHeight expiryTime →
      ∃ d, r.data = some d ∧ Json.decode? InitiateAnswer d = some ⟨e.id⟩
  requested : ∀ {id chain}, command = .claim id chain → e.id = id

theorem Announces.chain {command : Command} {r : Response} {t : Store} {e : Escrow}
    (h : Announces command r t e) :
    r.attributes.lookup "consumer_chain_id" = some (Command.announcedChain e command) := by
  rw [h.attributes]
  rfl

/-! ## Every effect is announced -/

theorem decode?_answer (id : String) :
    Json.decode? InitiateAnswer (Json.encode (InitiateAnswer.mk id)) = some ⟨id⟩ := by
  apply Json.decode?_encode_of_closed
  · decide
  · intro a
    trivial

theorem Effect.announces {call : Call} {s t : Store} {command : Command} {r : Response}
    (heffect : Effect call s command r t) (hmemory : InMemory command)
    (h : Ledger.IsSound s) : ∃ e, Announces command r t e := by
  cases heffect with
  | @opened chain amount recipient expiryHeight expiryTime n hcoin hlast hn hfunds =>
      have hstored := Stored.opened s (n := n + 1)
        (m := initiateMessage call chain amount recipient expiryHeight expiryTime)
        ⟨hmemory.1, hmemory.2⟩ (Coin.of_check hcoin).1 hn
      exact ⟨_, hstored.byId, rfl, rfl,
        fun _ => ⟨_, rfl, decode?_answer (toString (n + 1))⟩, nofun⟩
  | @refunded chain denom e hfunds hfound howner hid =>
      have hstored := (h.wellKeyed.pendingOnRoute hfound).1
      exact ⟨e.settle .canceled, (hstored.settle .canceled).byId, rfl, rfl, nofun, nofun⟩
  | @claimed id chain e hfunds hfound hpending hid =>
      obtain ⟨hstored, rfl⟩ := h.wellKeyed.byId_some hfound
      refine ⟨e.settle .claimed, (hstored.settle .claimed).byId, rfl, rfl, nofun, ?_⟩
      rintro id chain' ⟨⟩
      rfl

variable {env : Env} {call : Call} {command : Command} {s t : Store} {r : Response}

/-- Every call that succeeds on a reached store names an escrow that is on record afterwards, with
the amount on record, and the answer to an opening carries its id. The chain is the one on record
exactly if a claim has named that one. -/
theorem events_describe (hreached : Reached s) (hmemory : InMemory command)
    (h : execute env call command s = .ok r t) :
    ∃ e, Announces command r t e ∧
      (r.attributes.lookup "consumer_chain_id" = some e.chain ↔ Command.NamesChain e command) := by
  obtain ⟨e, hannounces⟩ := (effect_of_execute h).announces hmemory hreached.isSound
  refine ⟨e, hannounces, ?_⟩
  rw [hannounces.chain, Option.some.injEq]
  exact Command.announcedChain_eq_iff

/-- A claim in the name of the chain of the escrow. -/
theorem events_describe_claim :
    let owner := "maany190vqdjtlpcq27xslcveglfmr4ynfwg7g9637yr"
    let coin : Coin := ⟨"umaany", ⟨100, by decide⟩⟩
    let opening : Invocation :=
      ⟨1, ⟨owner, [coin]⟩, .initiate "dex-1" coin none none none, ⟨by decide, by decide⟩⟩
    let s := opening.committed "contract" (deployed {})
    let claiming : Command := .claim "1" "dex-1"
    ∃ r t e, execute ⟨2, "contract"⟩ ⟨owner, []⟩ claiming s = .ok r t ∧ Announces claiming r t e ∧
      r.attributes.lookup "escrow_id" = some "1" ∧
      r.attributes.lookup "consumer_chain_id" = some e.chain := by
  intro owner coin opening s claiming
  have hs : Reached s := (Reached.empty.instantiated {}).called "contract" opening
  let r : Response := {
    attributes := [
      ("method", "mark_escrow_claimed"),
      ("escrow_id", "1"),
      ("consumer_chain_id", "dex-1"),
      ("amount", "100umaany")] }
  have hresult : (execute ⟨2, "contract"⟩ ⟨owner, []⟩ claiming).result s = .ok r := by
    decide +kernel
  have hclaimed := Operation.ok_of_result hresult
  obtain ⟨e, hannounces, hchain⟩ := events_describe hs (by trivial) hclaimed
  have hid : e.id = "1" := hannounces.requested rfl
  have hrecord : Ledger.byId ((execute ⟨2, "contract"⟩ ⟨owner, []⟩ claiming).after s) "1" =
      .ok (some ⟨"1", "dex-1", coin, "", 0, 0, .claimed⟩) := by
    decide +kernel
  have hrecorded := hannounces.recorded
  rw [hid, hrecord] at hrecorded
  have hnames : Command.NamesChain e claiming := by
    cases hrecorded
    rfl
  exact ⟨r, _, e, hclaimed, hannounces, rfl, hchain.2 hnames⟩

/-- A claim that names a chain of its own choice is carried out, and announced for that chain. -/
theorem claim_announced_elsewhere :
    let owner := "maany190vqdjtlpcq27xslcveglfmr4ynfwg7g9637yr"
    let coin : Coin := ⟨"umaany", ⟨100, by decide⟩⟩
    let calls : List Invocation := [
      ⟨1, ⟨owner, [coin]⟩, .initiate "dex-1" coin none none none, ⟨by decide, by decide⟩⟩]
    let s := settled "contract" calls (deployed {})
    let claiming := execute ⟨2, "contract"⟩ ⟨owner, []⟩ (.claim "1" "osmosis-1")
    let e : Escrow := ⟨"1", "dex-1", coin, "", 0, 0, .claimed⟩
    claiming.result s = .ok {
        attributes := [
          ("method", "mark_escrow_claimed"),
          ("escrow_id", "1"),
          ("consumer_chain_id", "osmosis-1"),
          ("amount", "100umaany")] } ∧
      Ledger.byId (claiming.after s) "1" = .ok (some e) ∧ e.chain ≠ "osmosis-1" := by
  decide +kernel

end Custody.Contract
