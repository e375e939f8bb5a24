import Custody.Json.Form
import Custody.Text.Decimal

/-!
# Coins

An amount is a number below 2 ^ 128. A coin pairs it with the name of its denomination.
-/

namespace Custody

/-- No amount reaches 2 ^ 128. -/
abbrev Amount.limit : Nat := UInt64.size * UInt64.size

structure Amount where
  val : Nat
  val_lt : val < Amount.limit
  deriving DecidableEq

namespace Amount

@[ext] theorem ext {a b : Amount} (h : a.val = b.val) : a = b := by
  cases a; cases b; cases h; rfl

def zero : Amount := ⟨0, by decide⟩

instance : Inhabited Amount := ⟨zero⟩

def ofNat? (n : Nat) : Option Amount := if h : n < limit then some ⟨n, h⟩ else none

/-- The sum, if it stays below the limit. -/
def add? (a b : Amount) : Option Amount := ofNat? (a.val + b.val)

/-- The difference, zero at least. -/
def sub (a b : Amount) : Amount := ⟨a.val - b.val, Nat.lt_of_le_of_lt (Nat.sub_le _ _) a.val_lt⟩

def text (a : Amount) : String := toString a.val

def read (s : String) : Except Text.Decimal.Fault Amount := do
  let n ← Text.Decimal.read limit s
  match ofNat? n with
  | some a => .ok a
  | none => .error .tooLarge

instance : JsonForm Amount where
  toJson a := .str a.text
  ofJson?
    | .str s => (read s).toOption
    | _ => none

end Amount

structure Coin where
  denom : String
  amount : Amount
  deriving DecidableEq, Inhabited

namespace Coin

/-- The amount directly followed by the denomination. -/
def text (c : Coin) : String := c.amount.text ++ c.denom

inductive Fault where
  | invalidDenom (denom : String)
  | zeroAmount
  deriving DecidableEq, Repr

def Fault.message : Fault → String
  | .invalidDenom denom => s!"invalid denom: {denom}"
  | .zeroAmount => "amount must be > 0"

def isDenomLetter (c : Char) : Bool := c.isAlpha

def isDenomSign (c : Char) : Bool :=
  c.isAlphanum || c == '/' || c == ':' || c == '.' || c == '_' || c == '-'

/-- A letter followed by 2 to 127 letters, digits and signs; letters and digits are ASCII. -/
def validDenom (denom : String) : Bool :=
  match denom.toList with
  | [] => false
  | c :: rest => isDenomLetter c && 2 ≤ rest.length && rest.length ≤ 127 && rest.all isDenomSign

def checkDenom (denom : String) : Except Fault Unit :=
  if validDenom denom then .ok () else .error (.invalidDenom denom)

/-- A well-formed denomination and a positive amount. -/
def check (c : Coin) : Except Fault Unit := do
  checkDenom c.denom
  if c.amount.val = 0 then .error .zeroAmount else .ok ()

/-- Members with other names do not count. -/
instance : JsonForm Coin where
  toJson c := .obj [("denom", toJson c.denom), ("amount", toJson c.amount)]
  ofJson? j := do
    let m ← j.tolerantRecord? ["denom", "amount"]
    some {
      denom := ← Json.member? m "denom"
      amount := ← Json.member? m "amount" }

end Coin

end Custody
