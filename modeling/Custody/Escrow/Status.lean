import Custody.Error
import Custody.Text.Blank

/-!
# Escrow status

An escrow is pending until it is claimed or canceled, for good.
-/

namespace Custody

inductive Status where
  | pending
  | claimed
  | canceled
  deriving DecidableEq, Repr, Inhabited

namespace Status

def text : Status → String
  | .pending => "PENDING"
  | .claimed => "CLAIMED"
  | .canceled => "CANCELED"

def isTerminal (s : Status) : Bool := s != .pending

/-- Case and blanks around the word do not matter. -/
def read (s : String) : Except Error Status :=
  match (Text.trim s).map Char.toUpper with
  | "PENDING" => .ok .pending
  | "CLAIMED" => .ok .claimed
  | "CANCELED" => .ok .canceled
  | other => .error (.invalidRequest (.unknownStatus other))

instance : JsonForm Status where
  toJson
    | .pending => .str "pending"
    | .claimed => .str "claimed"
    | .canceled => .str "canceled"
  ofJson?
    | .str "pending" => some .pending
    | .str "claimed" => some .claimed
    | .str "canceled" => some .canceled
    | _ => none

end Status

end Custody
