import Custody.Json.Quoted

/-!
# JSON text

The compact form: no blanks, members in their order.
-/

namespace Custody.Json

open Ascii

mutual

def print : Json → Bytes
  | .null => Bytes.ofString "null"
  | .bool true => Bytes.ofString "true"
  | .bool false => Bytes.ofString "false"
  | .nat n => Bytes.ofString (toString n)
  | .str s => Quoted.write s
  | .arr items => openBracket :: printItems items ++ [closeBracket]
  | .obj members => openBrace :: printMembers members ++ [closeBrace]
  | .other text => text

def printItems : List Json → Bytes
  | [] => []
  | [j] => print j
  | j :: k :: rest => print j ++ comma :: printItems (k :: rest)

def printMembers : List (String × Json) → Bytes
  | [] => []
  | [(name, j)] => Quoted.write name ++ colon :: print j
  | (name, j) :: m :: rest =>
    Quoted.write name ++ colon :: print j ++ comma :: printMembers (m :: rest)

end

end Custody.Json
