import Custody.Bytes

/-!
# JSON values

Objects keep their members in the order of the text, repeated names included. A scalar that is none
of the literals below keeps its text, since a value nobody reads may hold anything.
-/

namespace Custody

inductive Json where
  | null
  | bool (b : Bool)
  | nat (n : Nat)
  | str (s : String)
  | arr (items : List Json)
  | obj (members : List (String × Json))
  | other (text : Bytes)
  deriving Inhabited

/-! The bytes with a meaning in JSON text. -/
namespace Ascii

abbrev quote : UInt8 := 0x22
abbrev comma : UInt8 := 0x2C
abbrev slash : UInt8 := 0x2F
abbrev colon : UInt8 := 0x3A
abbrev openBracket : UInt8 := 0x5B
abbrev backslash : UInt8 := 0x5C
abbrev closeBracket : UInt8 := 0x5D
abbrev openBrace : UInt8 := 0x7B
abbrev closeBrace : UInt8 := 0x7D

end Ascii

end Custody
