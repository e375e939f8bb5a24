import Custody.Proofs.Contract.History
import Custody.Proofs.Ledger.Outstanding

/-!
# Funds are conserved

What successful calls attach, less what they send, is what the escrows on record that are pending or
claimed add up to.
-/

namespace Custody.Contract

open Ledger (outstanding IsSound)

/-- The sum of one denomination in a list of coins. -/
def amountOf (denom : String) (coins : List Coin) : Nat :=
  ((coins.filter fun c => c.denom = denom).map fun c => c.amount.val).sum

/-- What was attached to a call. -/
def Receipt.attached (denom : String) (r : Receipt) : Nat := amountOf denom r.call.funds

/-- What a call sent. -/
def Receipt.sent (denom : String) (r : Receipt) : Nat :=
  (r.response.transfers.map fun t => amountOf denom t.coins).sum

def totalAttached (denom : String) (receipts : List Receipt) : Nat :=
  (receipts.map (Receipt.attached denom)).sum

def totalSent (denom : String) (receipts : List Receipt) : Nat :=
  (receipts.map (Receipt.sent denom)).sum

theorem amountOf_singleton (denom : String) (c : Coin) :
    amountOf denom [c] = if c.denom = denom then c.amount.val else 0 := by
  unfold amountOf
  rw [List.filter_cons]
  by_cases hdenom : c.denom = denom
  · simp only [hdenom, decide_true, if_true, List.filter_nil, List.map_cons, List.map_nil,
      List.sum_cons, List.sum_nil, Nat.add_zero]
  · simp only [hdenom, decide_false, Bool.false_eq_true, if_false, List.filter_nil, List.map_nil,
      List.sum_nil]

/-- A call attaches what it sends and what it adds to the escrows. -/
theorem Effect.balanced {call : Call} {s t : Store} {command : Command} {response : Response}
    (heffect : Effect call s command response t) (hmemory : InMemory command) (h : IsSound s)
    (denom : String) : amountOf denom call.funds + outstanding s denom =
      (response.transfers.map fun t => amountOf denom t.coins).sum + outstanding t denom := by
  cases heffect with
  | @opened chain amount recipient expiryHeight expiryTime n hcoin hlast hn hfunds =>
      have hstored := Ledger.Stored.opened s (m := initiateMessage call chain amount recipient
        expiryHeight expiryTime) ⟨hmemory.1, hmemory.2⟩ (Coin.of_check hcoin).1 hn
      have hadded := Ledger.outstanding_opened_fresh hstored (h.fresh hlast) denom
      have hattached : amountOf denom call.funds =
          if amount.denom = denom then amount.amount.val else 0 := by
        rw [hfunds, amountOf_singleton]
      rw [hattached, hadded, List.map_nil, List.sum_nil, Nat.zero_add, Nat.add_comm]
      rfl
  | @refunded chain denom' e hfunds hfound howner hid =>
      obtain ⟨hstored, hpending, -⟩ := h.wellKeyed.pendingOnRoute hfound
      have hfreed := Ledger.outstanding_canceled hstored hpending denom
      have hattached : amountOf denom call.funds = 0 := by rw [hfunds]; rfl
      rw [hattached, List.map_cons, List.sum_cons, amountOf_singleton, List.map_nil, List.sum_nil]
      omega
  | @claimed id chain e hfunds hfound hpending hid =>
      obtain ⟨hstored, -⟩ := h.wellKeyed.byId_some hfound
      have hattached : amountOf denom call.funds = 0 := by rw [hfunds]; rfl
      rw [hattached, Ledger.outstanding_claimed hstored hpending denom]
      rfl

/-- The ledger is sound, and the books of the receipts so far are even. -/
structure Even (past : List Receipt) (s : Store) : Prop where
  sound : IsSound s
  balanced : ∀ denom, totalAttached denom past = totalSent denom past + outstanding s denom

theorem even_step (past : List Receipt) (r : Receipt) (hvalid : r.Valid) (h : Even past r.before) :
    Even (past ++ [r]) r.after := by
  refine ⟨isSound_of_receipt hvalid h.sound, ?_⟩
  intro denom
  have hcall : r.attached denom + outstanding r.before denom =
      r.sent denom + outstanding r.after denom := hvalid.2.balanced hvalid.1 h.sound denom
  have hbefore := h.balanced denom
  have hattached : totalAttached denom (past ++ [r]) =
      totalAttached denom past + r.attached denom := by
    simp [totalAttached]
  have hsent : totalSent denom (past ++ [r]) = totalSent denom past + r.sent denom := by
    simp [totalSent]
  omega

/-- Over any calls on a contract, in any denomination: what successful calls attach, less what they
send, is what is outstanding. -/
theorem funds_conserved (setup : Setup) (contract : Address) (calls : List Invocation)
    (denom : String) :
    (totalAttached denom (history contract calls (deployed setup)) : Int) -
        totalSent denom (history contract calls (deployed setup)) =
      outstanding (settled contract calls (deployed setup)) denom := by
  have hstart : Even [] (deployed setup) := by
    refine ⟨isSound_deployed setup, ?_⟩
    intro denom
    rw [Ledger.outstanding_of_records (records_deployed setup)]
    rfl
  have hend : Even (history contract calls (deployed setup))
      (settled contract calls (deployed setup)) := history_induction even_step calls hstart
  have hbalanced := hend.balanced denom
  omega

end Custody.Contract
