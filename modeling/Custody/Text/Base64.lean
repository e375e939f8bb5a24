import Custody.Bytes

/-!
# Base64

The standard alphabet. Writing pads the last group to four characters; reading takes any part of
that padding, and refuses left-over bits that are not zero. What was written is read back
(`decode?_encode`).
-/

namespace Custody.Text.Base64

def alphabet : List Char :=
  "ABCDEFGHIJKLMNOPQRSTUVWXYZabcdefghijklmnopqrstuvwxyz0123456789+/".toList

def symbol (n : Nat) : Char := alphabet[n]?.getD 'A'

def value? (c : Char) : Option Nat := alphabet.idxOf? c

def encodeChars : Bytes → List Char
  | [] => []
  | [a] => [symbol (a.toNat / 4), symbol (a.toNat % 4 * 16), '=', '=']
  | [a, b] =>
    [symbol (a.toNat / 4), symbol (a.toNat % 4 * 16 + b.toNat / 16), symbol (b.toNat % 16 * 4), '=']
  | a :: b :: c :: rest =>
    symbol (a.toNat / 4) :: symbol (a.toNat % 4 * 16 + b.toNat / 16) ::
      symbol (b.toNat % 16 * 4 + c.toNat / 64) :: symbol (c.toNat % 64) :: encodeChars rest

def encode (b : Bytes) : String := String.ofList (encodeChars b)

/-- A last group of two symbols: one byte and four zero bits. -/
def single? (p q : Char) : Option Bytes := do
  let x ← value? p
  let y ← value? q
  if y % 16 = 0 then some [UInt8.ofNat (x * 4 + y / 16)] else none

/-- A last group of three symbols: two bytes and two zero bits. -/
def double? (p q r : Char) : Option Bytes := do
  let x ← value? p
  let y ← value? q
  let z ← value? r
  if z % 4 = 0 then some [UInt8.ofNat (x * 4 + y / 16), UInt8.ofNat (y % 16 * 16 + z / 4)] else none

def decodeChars : List Char → Option Bytes
  | [] => some []
  | [_] => none
  | [p, q] => single? p q
  | [p, q, '='] => single? p q
  | [p, q, '=', '='] => single? p q
  | [p, q, r] => double? p q r
  | [p, q, r, '='] => double? p q r
  | p :: q :: r :: s :: rest => do
    let x ← value? p
    let y ← value? q
    let z ← value? r
    let w ← value? s
    let more ← decodeChars rest
    some (UInt8.ofNat (x * 4 + y / 16) :: UInt8.ofNat (y % 16 * 16 + z / 4) ::
      UInt8.ofNat (z % 4 * 64 + w) :: more)

def decode? (s : String) : Option Bytes := decodeChars s.toList

theorem value?_symbol : ∀ n < 64, value? (symbol n) = some n := by decide +kernel

theorem symbol_ne_pad : ∀ n < 64, symbol n ≠ '=' := by decide +kernel

private theorem decodeChars_group {p q r s : Char} (rest : List Char) (h : s ≠ '=') :
    decodeChars (p :: q :: r :: s :: rest) = (do
      let x ← value? p
      let y ← value? q
      let z ← value? r
      let w ← value? s
      let more ← decodeChars rest
      some (UInt8.ofNat (x * 4 + y / 16) :: UInt8.ofNat (y % 16 * 16 + z / 4) ::
        UInt8.ofNat (z % 4 * 64 + w) :: more)) := by
  rw [decodeChars.eq_def]
  split <;> simp_all

private theorem byte_eq {a : UInt8} {n : Nat} (h : n = a.toNat) : UInt8.ofNat n = a := by
  subst h
  exact UInt8.ofNat_toNat

theorem decodeChars_encodeChars (b : Bytes) : decodeChars (encodeChars b) = some b := by
  fun_induction encodeChars b with
  | case1 => rfl
  | case2 a =>
    have ha := a.toNat_lt
    rw [decodeChars, single?, value?_symbol _ (by omega), value?_symbol _ (by omega)]
    simp only [Option.bind_eq_bind, Option.bind_some]
    rw [if_pos (by omega), byte_eq (a := a) (by omega)]
  | case3 a b =>
    have ha := a.toNat_lt
    have hb := b.toNat_lt
    rw [decodeChars, double?, value?_symbol _ (by omega), value?_symbol _ (by omega),
      value?_symbol _ (by omega)]
    · simp only [Option.bind_eq_bind, Option.bind_some]
      rw [if_pos (by omega), byte_eq (a := a) (by omega), byte_eq (a := b) (by omega)]
    · exact symbol_ne_pad _ (by omega)
  | case4 a b c rest ih =>
    have ha := a.toNat_lt
    have hb := b.toNat_lt
    have hc := c.toNat_lt
    rw [decodeChars_group _ (symbol_ne_pad _ (by omega)), value?_symbol _ (by omega),
      value?_symbol _ (by omega), value?_symbol _ (by omega), value?_symbol _ (by omega), ih]
    simp only [Option.bind_eq_bind, Option.bind_some]
    rw [byte_eq (a := a) (by omega), byte_eq (a := b) (by omega), byte_eq (a := c) (by omega)]

theorem decode?_encode (b : Bytes) : decode? (encode b) = some b := by
  simp [decode?, encode, decodeChars_encodeChars]

end Custody.Text.Base64
