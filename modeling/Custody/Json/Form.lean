import Custody.Json.Printer
import Custody.Json.Reader
import Custody.Text.Base64

/-!
# JSON forms of types

A type's form is a way to write its values and a way to read them back. Records are read by naming
their members; enumerations are a name alone or an object with one member.
-/

namespace Custody

class JsonForm (α : Type) where
  toJson : α → Json
  ofJson? : Json → Option α

export JsonForm (toJson ofJson?)

namespace Json

def encode [JsonForm α] (a : α) : Bytes := (toJson a).print

def decode? (α : Type) [JsonForm α] (text : Bytes) : Option α := read? text >>= ofJson?

/-- The members of an object in which each of `names` occurs at most once and nothing else occurs.
-/
def record? (names : List String) : Json → Option (List (String × Json))
  | .obj members =>
    if (∀ m ∈ members, m.1 ∈ names) ∧ (members.map (·.1)).Nodup then some members else none
  | _ => none

/-- As `record?`, but members with other names do not count. -/
def tolerantRecord? (names : List String) : Json → Option (List (String × Json))
  | .obj members => record? names (.obj (members.filter (·.1 ∈ names)))
  | _ => none

def member? [JsonForm α] (members : List (String × Json)) (name : String) : Option α :=
  members.lookup name >>= ofJson?

/-- A member that may be absent or null. -/
def optional? [JsonForm α] (members : List (String × Json)) (name : String) : Option (Option α) :=
  match members.lookup name with
  | none | some .null => some none
  | some j => (ofJson? j).map some

/-- A member that may be absent, but not null. -/
def memberOr? [JsonForm α] (members : List (String × Json)) (name : String) (a : α) : Option α :=
  match members.lookup name with
  | none => some a
  | some j => ofJson? j

/-- The name of a variant and, unless it is a name alone, its content. -/
def variant? : Json → Option (String × Option Json)
  | .str name => some (name, none)
  | .obj [(name, content)] => some (name, some content)
  | _ => none

def variant (name : String) (content : Json) : Json := .obj [(name, content)]

/-- Bytes are written as base64 text. -/
def ofBytes (b : Bytes) : Json := .str (Text.Base64.encode b)

def bytes? : Json → Option Bytes
  | .str s => Text.Base64.decode? s
  | _ => none

end Json

instance : JsonForm Json where
  toJson := id
  ofJson? := some

instance : JsonForm String where
  toJson := .str
  ofJson?
    | .str s => some s
    | _ => none

instance : JsonForm Bool where
  toJson := .bool
  ofJson?
    | .bool b => some b
    | _ => none

instance : JsonForm UInt64 where
  toJson n := .nat n.toNat
  ofJson?
    | .nat n => if n < UInt64.size then some (UInt64.ofNat n) else none
    | _ => none

instance : JsonForm UInt32 where
  toJson n := .nat n.toNat
  ofJson?
    | .nat n => if n < UInt32.size then some (UInt32.ofNat n) else none
    | _ => none

instance [JsonForm α] : JsonForm (Option α) where
  toJson
    | none => .null
    | some a => toJson a
  ofJson?
    | .null => some none
    | j => (ofJson? j).map some

instance [JsonForm α] : JsonForm (List α) where
  toJson items := .arr (items.map toJson)
  ofJson?
    | .arr items => items.mapM ofJson?
    | _ => none

end Custody
