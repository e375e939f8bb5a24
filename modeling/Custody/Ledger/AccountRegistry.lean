import Custody.Operation
import Custody.Store.Key

/-!
# Authorized accounts

For each consumer chain, the interchain account that may relay for it.
-/

namespace Custody.AccountRegistry

/-- Replaces the account of a chain. -/
def set (chain : String) (account : Address) : Operation Store Unit :=
  Store.save (Store.Key.account chain) (Bytes.ofString account)

def find? (s : Store) (chain : String) : Except Error (Option Address) :=
  match s.get (Store.Key.account chain) with
  | none => .ok none
  | some b => ((Text.Utf8.decode b).mapError .notUtf8).map some

end Custody.AccountRegistry
