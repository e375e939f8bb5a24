import Custody.Operation
import Custody.Store.Key

/-!
# Depositors

Who funded each escrow. Kept beside the record, so that the committed bytes do not depend on it.
-/

namespace Custody.Depositors

def insert (s : Store) (id : String) (owner : Address) : Store :=
  s.insert (Store.Key.depositor id) (Json.encode owner)

def find? (s : Store) (id : String) : Except Error (Option Address) :=
  match s.get (Store.Key.depositor id) with
  | none => .ok none
  | some b =>
    match Json.decode? String b with
    | none => .error .unreadableJson
    | some owner => .ok (some owner)

end Custody.Depositors
