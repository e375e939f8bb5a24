/-!
# Decimal numbers

Reading an unsigned number below a limit. The first fault counts, and at each character a wrong
digit comes before a number that has grown too large. The plain form of a number below the limit is
read back (`read_toString`).
-/

namespace Custody.Text.Decimal

inductive Fault where
  | empty
  | notADigit
  | tooLarge
  deriving DecidableEq, Repr

def Fault.message : Fault → String
  | .empty => "cannot parse integer from empty string"
  | .notADigit => "invalid digit found in string"
  | .tooLarge => "number too large to fit in target type"

/-- Reads on from the value `n` of the digits so far. -/
def digits (limit : Nat) (n : Nat) : List Char → Except Fault Nat
  | [] => .ok n
  | c :: rest =>
    if c.isDigit then
      let m := n * 10 + (c.toNat - '0'.toNat)
      if m < limit then digits limit m rest else .error .tooLarge
    else .error .notADigit

/-- One or more digits, leading zeros allowed, after at most one plus sign. -/
def read (limit : Nat) (s : String) : Except Fault Nat :=
  match s.toList with
  | [] => .error .empty
  | ['+'] => .error .notADigit
  | '+' :: rest => digits limit 0 rest
  | cs => digits limit 0 cs

theorem le_ofDigitChars (cs : List Char) (n : Nat) : n ≤ Nat.ofDigitChars 10 cs n := by
  induction cs generalizing n with
  | nil => simp
  | cons c cs ih =>
    have := ih (10 * n + (c.toNat - '0'.toNat))
    rw [Nat.ofDigitChars_cons]
    omega

theorem digits_eq_ok {limit n : Nat} {cs : List Char} (hd : ∀ c ∈ cs, c.isDigit)
    (h : Nat.ofDigitChars 10 cs n < limit) :
    digits limit n cs = .ok (Nat.ofDigitChars 10 cs n) := by
  induction cs generalizing n with
  | nil => rfl
  | cons c cs ih =>
    rw [Nat.ofDigitChars_cons, Nat.mul_comm] at h
    have grows := le_ofDigitChars cs (n * 10 + (c.toNat - '0'.toNat))
    rw [digits, if_pos (hd c (by simp))]
    simp only
    rw [if_pos (by omega), ih (fun x hx => hd x (by simp [hx])) h, Nat.ofDigitChars_cons,
      Nat.mul_comm]

theorem read_toString {limit n : Nat} (h : n < limit) : read limit (toString n) = .ok n := by
  have chars : (toString n).toList = Nat.toDigits 10 n := by
    rw [Nat.toString_eq_repr, Nat.repr_eq_ofList_toDigits, String.toList_ofList]
  have digit : ∀ c ∈ Nat.toDigits 10 n, c.isDigit := fun c hc =>
    Nat.isDigit_of_mem_toDigits (by decide) (by decide) hc
  have value : Nat.ofDigitChars 10 (Nat.toDigits 10 n) 0 = n :=
    Nat.ofDigitChars_toDigits (by decide) (by decide)
  rw [read, chars]
  split
  · rename_i empty
    exact absurd empty Nat.toDigits_ne_nil
  · rename_i hp
    exact absurd (digit '+' (by simp [hp])) (by decide)
  · rename_i rest hp
    exact absurd (digit '+' (by simp [hp])) (by decide)
  · rw [digits_eq_ok digit (by rw [value]; exact h), value]

end Custody.Text.Decimal
