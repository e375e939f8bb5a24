import Custody.Wire.Key

/-!
# Skipping fields

What an unknown field holds is passed over by its wire type; a group is passed over field by
field, up to its end.
-/

namespace Custody.Wire

def dropBytes (n : Nat) (b : Bytes) : Except Cause Bytes :=
  match b.split? n with
  | none => .error .underflow
  | some (_, rest) => .ok rest

/-- Passes over the fields of a group with `skip`, and over the key that ends it. -/
def skipGroup (skip : Key → Bytes → Except Cause Bytes) (tag : Nat) :
    Nat → Bytes → Except Cause Bytes
  | 0, _ => .error .invalidVarint
  | fuel + 1, b => do
    let (key, rest) ← Key.read b
    if key.kind = .groupEnd then
      if key.tag = tag then .ok rest else .error .strayGroupEnd
    else
      let rest ← skip key rest
      skipGroup skip tag fuel rest

/-- Passes over the content of a field, with groups inside one another up to `depth`. -/
def skip : Nat → Key → Bytes → Except Cause Bytes
  | 0, _, _ => .error .tooDeep
  | depth + 1, key, b =>
    match key.kind with
    | .varint =>
      match Varint.read b with
      | none => .error .invalidVarint
      | some (_, rest) => .ok rest
    | .fixed64 => dropBytes 8 b
    | .delimited => (readDelimited b).map (·.2)
    | .groupStart => skipGroup (skip depth) key.tag (b.length + 1) b
    | .groupEnd => .error .strayGroupEnd
    | .fixed32 => dropBytes 4 b

end Custody.Wire
