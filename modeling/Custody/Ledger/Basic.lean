import Custody.Escrow.Record
import Custody.Operation
import Custody.Store.Key

/-!
# The ledger

Escrow records under their ids, an index from routes to ids, and the counter that ids come from.
Which changes of a record are legal is not decided here.
-/

namespace Custody.Ledger

open Store (Key.escrow Key.route Key.counter Key.escrowEnd)

/-- Writes a record and points its route at it, away from whatever the route pointed to. -/
def put (e : Escrow) : Operation Store Unit := do
  modify (·.insert (Key.escrow e.id) e.encode)
  Store.save (Key.route e.chain e.amount.denom) (Bytes.ofString e.id)

/-- The committed bytes of a record. -/
def raw (s : Store) (id : String) : Option Bytes := s.get (Key.escrow id)

def byId (s : Store) (id : String) : Except Error (Option Escrow) :=
  match raw s id with
  | none => .ok none
  | some b => (Escrow.decode b).map some

def byRoute (s : Store) (chain denom : String) : Except Error (Option Escrow) :=
  match s.get (Key.route chain denom) with
  | none => .ok none
  | some b => do
    let id ← (Text.Utf8.decode b).mapError .notUtf8
    byId s id

/-- The records after the one with the given id, or all of them, in the byte order of their ids. -/
def records (s : Store) (start : Option String) : List Bytes :=
  let low := match start with
    | none => [0x01]
    | some id => Key.escrow id ++ [0x00]
  (s.range low Key.escrowEnd).map (·.2)

/-- Decodes records until `count` of them are kept. -/
def first (keep : Escrow → Bool) : Nat → List Bytes → Except Error (List Escrow)
  | 0, _ => .ok []
  | _ + 1, [] => .ok []
  | count + 1, b :: rest => do
    let e ← Escrow.decode b
    if keep e then (first keep count rest).map (e :: ·) else first keep (count + 1) rest

/-- The last id given out; zero before the first. -/
def lastId (s : Store) : Except Error Nat :=
  match s.get Key.counter with
  | none => .ok 0
  | some b =>
    if b.length = 8 then .ok (Bytes.ofBigEndian b) else .error (.internal (.counterLength b.length))

/-- Ids count up from one and are never given out twice. -/
def nextId : Operation Store String := do
  let last ← Operation.reading lastId
  if last + 1 < UInt64.size then
    modify (·.insert Key.counter (Bytes.bigEndian (last + 1) 8))
    return toString (last + 1)
  else throw (.internal .counterOverflow)

end Custody.Ledger
