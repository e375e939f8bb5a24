import Custody.Wire.Varint

/-!
# Keys and faults

A field is announced by its tag and the wire type of what follows. A fault remembers the fields
inside which it arose, innermost first.
-/

namespace Custody.Wire

inductive WireType where
  | varint
  | fixed64
  | delimited
  | groupStart
  | groupEnd
  | fixed32
  deriving DecidableEq, Repr

namespace WireType

def code : WireType → Nat
  | .varint => 0
  | .fixed64 => 1
  | .delimited => 2
  | .groupStart => 3
  | .groupEnd => 4
  | .fixed32 => 5

def ofCode? : Nat → Option WireType
  | 0 => some .varint
  | 1 => some .fixed64
  | 2 => some .delimited
  | 3 => some .groupStart
  | 4 => some .groupEnd
  | 5 => some .fixed32
  | _ => none

def name : WireType → String
  | .varint => "Varint"
  | .fixed64 => "SixtyFourBit"
  | .delimited => "LengthDelimited"
  | .groupStart => "StartGroup"
  | .groupEnd => "EndGroup"
  | .fixed32 => "ThirtyTwoBit"

end WireType

inductive Cause where
  | invalidVarint
  | invalidKey (n : Nat)
  | invalidWireType (n : Nat)
  | invalidTag
  | wrongWireType (found expected : WireType)
  | underflow
  | notUtf8
  | overrun
  | strayGroupEnd
  | tooDeep
  deriving DecidableEq, Repr

def Cause.message : Cause → String
  | .invalidVarint => "invalid varint"
  | .invalidKey n => s!"invalid key value: {n}"
  | .invalidWireType n => s!"invalid wire type value: {n}"
  | .invalidTag => "invalid tag value: 0"
  | .wrongWireType found expected => s!"invalid wire type: {found.name} (expected {expected.name})"
  | .underflow => "buffer underflow"
  | .notUtf8 => "invalid string value: data is not UTF-8 encoded"
  | .overrun => "delimited length exceeded"
  | .strayGroupEnd => "unexpected end group tag"
  | .tooDeep => "recursion limit reached"

structure Fault where
  cause : Cause
  /-- Message and field names, innermost first. -/
  within : List (String × String) := []
  deriving DecidableEq, Repr

namespace Fault

def inside (message field : String) (f : Fault) : Fault :=
  { f with within := f.within ++ [(message, field)] }

def message (f : Fault) : String :=
  "failed to decode Protobuf message: " ++
    String.join (f.within.map fun place => place.1 ++ "." ++ place.2 ++ ": ") ++ f.cause.message

end Fault

structure Key where
  tag : Nat
  kind : WireType
  deriving DecidableEq, Repr

namespace Key

def write (k : Key) : Bytes := Varint.write (k.tag * 8 + k.kind.code)

/-- The wire type is looked at before the tag. -/
def read (b : Bytes) : Except Cause (Key × Bytes) :=
  match Varint.read b with
  | none => .error .invalidVarint
  | some (n, rest) =>
    if UInt32.size ≤ n then .error (.invalidKey n)
    else match WireType.ofCode? (n % 8) with
      | none => .error (.invalidWireType (n % 8))
      | some kind => if n / 8 = 0 then .error .invalidTag else .ok (⟨n / 8, kind⟩, rest)

end Key

/-- A length and that many bytes. -/
def readDelimited (b : Bytes) : Except Cause (Bytes × Bytes) :=
  match Varint.read b with
  | none => .error .invalidVarint
  | some (length, rest) =>
    match rest.split? length with
    | none => .error .underflow
    | some p => .ok p

def writeDelimited (content : Bytes) : Bytes := Varint.write content.length ++ content

end Custody.Wire
