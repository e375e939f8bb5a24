import Custody.Bank.Custodian

/-!
# Attached funds

The contract's own account as custody. A deposit is what was attached to the call, all of it and
once; a withdrawal is queued as a transfer that takes effect when the call succeeds.
-/

namespace Custody

structure Transfer where
  target : Address
  coins : List Coin
  deriving DecidableEq

namespace Transfer

def toJson (t : Transfer) : Json :=
  .variant "send" (.obj [
    ("to_address", JsonForm.toJson t.target),
    ("amount", JsonForm.toJson t.coins)])

end Transfer

/-- Who called and what was attached. -/
structure Call where
  sender : Address
  funds : List Coin
  deriving DecidableEq

/-- The attached amount, which must be one coin of the given denomination and not zero. -/
def Call.paid (call : Call) (denom : String) : Except PaymentFault Amount :=
  match call.funds with
  | [] => .error .nothingAttached
  | [c] =>
    if c.amount.val = 0 then .error .nothingAttached
    else if c.denom ≠ denom then .error (.missingDenom denom)
    else .ok c.amount
  | _ => .error .severalDenoms

structure AttachedFunds where
  contract : Address
  call : Call
  deposited : Bool := false
  queue : List Transfer := []
  deriving DecidableEq

namespace AttachedFunds

def deposit (b : AttachedFunds) (source : Address) (c : Coin) : Except Error AttachedFunds :=
  if source ≠ b.call.sender then .error (.payment (.depositForOther source))
  else if b.deposited then .error (.payment .alreadyDeposited)
  else match b.call.paid c.denom with
    | .error why => .error (.payment why)
    | .ok paid =>
      if paid = c.amount then .ok { b with deposited := true }
      else .error (.payment (.insufficientAttached paid c))

def withdraw (b : AttachedFunds) (source target : Address) (c : Coin) :
    Except Error AttachedFunds :=
  if source ≠ b.contract then .error (.payment (.notInCustody source))
  else .ok { b with queue := b.queue ++ [⟨target, [c]⟩] }

def send (b : AttachedFunds) (source target : Address) (c : Coin) : Except Error AttachedFunds :=
  if target = b.contract then b.deposit source c else b.withdraw source target c

instance : Custodian AttachedFunds where
  send := send
  moduleAddress b _ := .ok b.contract

end AttachedFunds

end Custody
