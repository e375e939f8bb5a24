import Custody.Wire.Skip

/-!
# Message layouts

A layout names the fields of a record and says how each is written and merged. Fields are written
in their order, defaults left out; they are read in any order, the last value counts, messages are
merged, and unknown fields are passed over.
-/

namespace Custody.Wire

structure Field (α : Type) where
  tag : Nat
  name : String
  kind : WireType
  write : α → Bytes
  /-- Reads the content, inside `depth` further levels at most, and merges it into the record. -/
  merge : Nat → α → Bytes → Except Fault (α × Bytes)

structure Layout (α : Type) where
  name : String
  blank : α
  fields : List (Field α)

def lift (x : Except Cause β) : Except Fault β := x.mapError fun cause => { cause }

namespace Layout

def write (l : Layout α) (a : α) : Bytes := l.fields.flatMap fun f => f.write a

/-- Reads the content that a key announces. -/
def mergeField (l : Layout α) (depth : Nat) (key : Key) (a : α) (b : Bytes) :
    Except Fault (α × Bytes) :=
  match l.fields.find? fun f => f.tag == key.tag with
  | none => (lift (skip depth key b)).map fun rest => (a, rest)
  | some f =>
    (if key.kind = f.kind then f.merge depth a b
      else .error { cause := .wrongWireType key.kind f.kind }).mapError (Fault.inside l.name f.name)

/-- Reads fields until no more than `keep` bytes are left. -/
def mergeUntil (l : Layout α) (depth keep : Nat) : Nat → α → Bytes → Except Fault (α × Bytes)
  | 0, a, b => .ok (a, b)
  | fuel + 1, a, b =>
    if b.length ≤ keep then .ok (a, b)
    else do
      let (key, rest) ← lift (Key.read b)
      let (a, rest) ← l.mergeField depth key a rest
      mergeUntil l depth keep fuel a rest

/-- Levels of messages and groups inside one another. -/
def maxDepth : Nat := 100

def read (l : Layout α) (b : Bytes) : Except Fault α :=
  (l.mergeUntil maxDepth 0 b.length l.blank b).map (·.1)

end Layout

def keyed (tag : Nat) (kind : WireType) (content : Bytes) : Bytes :=
  Key.write ⟨tag, kind⟩ ++ content

def readText (b : Bytes) : Except Fault (String × Bytes) := do
  let (content, rest) ← lift (readDelimited b)
  match content.toString? with
  | none => .error { cause := .notUtf8 }
  | some s => .ok (s, rest)

def readNumber (b : Bytes) : Except Fault (Nat × Bytes) :=
  match Varint.read b with
  | none => .error { cause := .invalidVarint }
  | some p => .ok p

namespace Field

def text (tag : Nat) (name : String) (get : α → String) (set : α → String → α) : Field α where
  tag := tag
  name := name
  kind := .delimited
  write a := if get a = "" then [] else
    keyed tag .delimited (writeDelimited (Bytes.ofString (get a)))
  merge _ a b := (readText b).map fun p => (set a p.1, p.2)

def bytes (tag : Nat) (name : String) (get : α → Bytes) (set : α → Bytes → α) : Field α where
  tag := tag
  name := name
  kind := .delimited
  write a := if get a = [] then [] else keyed tag .delimited (writeDelimited (get a))
  merge _ a b := (lift (readDelimited b)).map fun p => (set a p.1, p.2)

def uint64 (tag : Nat) (name : String) (get : α → UInt64) (set : α → UInt64 → α) : Field α where
  tag := tag
  name := name
  kind := .varint
  write a := if get a = 0 then [] else keyed tag .varint (Varint.write (get a).toNat)
  merge _ a b := (readNumber b).map fun p => (set a (UInt64.ofNat p.1), p.2)

/-- A negative number is written as its 64-bit two's complement; a reader takes the low 32 bits. -/
def int32 (tag : Nat) (name : String) (get : α → Int32) (set : α → Int32 → α) : Field α where
  tag := tag
  name := name
  kind := .varint
  write a := if get a = 0 then [] else
    keyed tag .varint (Varint.write (get a).toInt64.toUInt64.toNat)
  merge _ a b := (readNumber b).map fun p => (set a (UInt32.ofNat p.1).toInt32, p.2)

/-- A list of texts, each written as a field of its own. -/
def texts (tag : Nat) (name : String) (get : α → List String) (set : α → List String → α) :
    Field α where
  tag := tag
  name := name
  kind := .delimited
  write a := (get a).flatMap fun s => keyed tag .delimited (writeDelimited (Bytes.ofString s))
  merge _ a b := (readText b).map fun p => (set a (get a ++ [p.1]), p.2)

/-- A message that may be absent. Its fields are read from all that follows; reading them must end
where its length says. -/
def message (tag : Nat) (name : String) (l : Layout β) (get : α → Option β) (set : α → β → α) :
    Field α where
  tag := tag
  name := name
  kind := .delimited
  write a := match get a with
    | none => []
    | some m => keyed tag .delimited (writeDelimited (l.write m))
  merge depth a b :=
    match depth with
    | 0 => .error { cause := .tooDeep }
    | depth + 1 => do
      let (length, rest) ← readNumber b
      if rest.length < length then .error { cause := .underflow }
      else
        let keep := rest.length - length
        let (m, left) ← l.mergeUntil depth keep rest.length ((get a).getD l.blank) rest
        if left.length = keep then .ok (set a m, left) else .error { cause := .overrun }

end Field

end Custody.Wire
