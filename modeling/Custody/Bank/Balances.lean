import Custody.Bank.Custodian
import Custody.Table

/-!
# Balance sheets

A bank that holds the balances of all accounts itself.
-/

namespace Custody

structure Balances where
  hrp : String
  sheet : Table (Address × String) Amount

namespace Balances

def empty (hrp : String) : Balances := ⟨hrp, .empty⟩

def set (b : Balances) (account : Address) (c : Coin) : Balances :=
  { b with sheet := b.sheet.insert (account, c.denom) c.amount }

/-- An account without an entry has nothing. -/
def balance (b : Balances) (account : Address) (denom : String) : Amount :=
  (b.sheet.get? (account, denom)).getD .zero

def send (b : Balances) (source target : Address) (c : Coin) : Except Error Balances :=
  let available := b.balance source c.denom
  if available.val < c.amount.val then .error (.payment (.insufficient available c))
  else if source = target then .ok b
  else match (b.balance target c.denom).add? c.amount with
    | none => .error (.aborted .balanceOverflow)
    | some received =>
      .ok ((b.set source ⟨c.denom, available.sub c.amount⟩).set target ⟨c.denom, received⟩)

instance : Custodian Balances where
  send := send
  moduleAddress b name := (Address.ofModule b.hrp name).mapError fun f => .payment (.noCustody f)

end Balances

end Custody
