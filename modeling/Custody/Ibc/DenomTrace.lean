/-!
# Denomination traces

A token that has travelled carries the ports and channels it came through before its base
denomination. Cutting a name into parts, and the parts into hops and the rest, loses nothing
(`joined_segments`, `append_leadingHops`).
-/

namespace Custody.Ibc

structure DenomTrace where
  path : String
  baseDenom : String
  deriving DecidableEq, Repr

namespace DenomTrace

def isNative (t : DenomTrace) : Bool := t.path.isEmpty

/-- The parts between slashes. -/
def segments : List Char → List (List Char)
  | [] => [[]]
  | c :: rest =>
    if c = '/' then [] :: segments rest
    else match segments rest with
      | [] => [[c]]
      | s :: more => (c :: s) :: more

def joined (parts : List (List Char)) : List Char := List.intercalate ['/'] parts

/-- `channel-` and one or more digits. -/
def isChannelId (s : List Char) : Bool :=
  "channel-".toList.isPrefixOf s &&
    let number := s.drop "channel-".length
    !number.isEmpty && number.all Char.isDigit

def isHop (port channel : List Char) : Bool := !port.isEmpty && isChannelId channel

/-- The leading pairs of a port and a channel, and what follows them. -/
def leadingHops : List (List Char) → List (List Char) × List (List Char)
  | port :: channel :: rest =>
    if isHop port channel then
      let (hops, base) := leadingHops rest
      (port :: channel :: hops, base)
    else ([], port :: channel :: rest)
  | parts => ([], parts)

/-- What follows the last pair is the base denomination, slashes included. When nothing does, the
whole is taken as native. -/
def read (raw : String) : DenomTrace :=
  match leadingHops (segments raw.toList) with
  | (_, []) => ⟨"", raw⟩
  | (hops, base) => ⟨String.ofList (joined hops), String.ofList (joined base)⟩

theorem segments_ne_nil (cs : List Char) : segments cs ≠ [] := by
  cases cs with
  | nil => simp [segments]
  | cons c rest =>
    rw [segments]
    split
    · simp
    · split <;> simp

theorem joined_cons (part : List Char) {parts : List (List Char)} (h : parts ≠ []) :
    joined (part :: parts) = part ++ '/' :: joined parts := by
  cases parts with
  | nil => exact absurd rfl h
  | cons p ps => simp [joined, List.intercalate]

/-- Cutting at the slashes loses nothing. -/
theorem joined_segments (cs : List Char) : joined (segments cs) = cs := by
  induction cs with
  | nil => simp [segments, joined, List.intercalate]
  | cons c rest ih =>
    rw [segments]
    split
    · rename_i slash
      rw [joined_cons _ (segments_ne_nil rest), ih, slash]
      rfl
    · split
      · rename_i none
        exact absurd none (segments_ne_nil rest)
      · rename_i s more eq
        rw [eq] at ih
        cases more with
        | nil => simpa [joined, List.intercalate] using ih
        | cons m ms =>
          rw [joined_cons _ (by simp)] at ih ⊢
          rw [List.cons_append, ih]

theorem append_leadingHops (parts : List (List Char)) :
    (leadingHops parts).1 ++ (leadingHops parts).2 = parts := by
  fun_induction leadingHops parts <;> simp_all

end DenomTrace

/-- Whether a token that arrives over this port and channel of the sender once left through them. -/
def startsAtSource (port channel denom : String) : Bool :=
  (port ++ "/" ++ channel ++ "/").toList.isPrefixOf denom.toList

end Custody.Ibc
