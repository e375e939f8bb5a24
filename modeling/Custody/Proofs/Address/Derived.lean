import Custody.Proofs.Address.RoundTrip
import Custody.Proofs.Text.Bytes

/-!
# Derived accounts

The accounts of modules and of channels are written for the beginning of a digest. Two of them are
the same only if the digests of two texts begin alike, and what is hashed for a channel tells its
port from its name as long as the port holds no slash.
-/

namespace Custody

/-- Different texts whose digests have the same first twenty bytes. -/
def Hash.Sha256.Collide (x y : Bytes) : Prop :=
  x ≠ y ∧ (digest x).take 20 = (digest y).take 20

namespace Address

open Hash.Sha256 (Collide)
open Text (Lower)

variable {hrp : String} {address : Address}

/-! ## What is hashed for a channel -/

/-- The text that is hashed for the account of a channel. -/
def escrowName (port channel : String) : String := "ics20-1\x00" ++ port ++ "/" ++ channel

theorem ofString_escrowName (port channel : String) :
    Bytes.ofString (escrowName port channel) = escrowPreimage port channel := by
  have hversion : Bytes.ofString "ics20-1\x00" = Bytes.ofString "ics20-1" ++ [0] := by decide
  rw [escrowName, escrowPreimage, String.append_assoc, String.append_assoc, Bytes.ofString_append,
    hversion, List.append_assoc, List.singleton_append, String.append_assoc]

theorem escrowPreimage_inj {port port' channel channel' : String} (hport : '/' ∉ port.toList)
    (hport' : '/' ∉ port'.toList) : escrowPreimage port channel = escrowPreimage port' channel' ↔
      port = port' ∧ channel = channel' := by
  constructor
  · intro h
    rw [escrowPreimage, escrowPreimage, List.append_cancel_left_eq, List.cons.injEq] at h
    have hchars := congrArg String.toList (Bytes.ofString_injective h.2)
    have hslash : ∀ s : String, "/".toList ++ s.toList = '/' :: s.toList := fun _ => rfl
    simp only [String.toList_append, List.append_assoc, hslash] at hchars
    have hparts := congrArg (List.splitOn '/') hchars
    rw [List.splitOn_append_cons_self_of_not_mem hport,
      List.splitOn_append_cons_self_of_not_mem hport', List.cons.injEq] at hparts
    obtain rfl := String.toList_injective hparts.1
    rw [List.append_cancel_left_eq, List.cons.injEq] at hchars
    exact ⟨rfl, String.toList_injective hchars.2⟩
  · rintro ⟨rfl, rfl⟩
    rfl

/-- A slash in the port could as well be the one that ends it. -/
example : escrowPreimage "a/b" "c" = escrowPreimage "a" "b/c" := by decide

/-! ## Whose account an address is -/

theorem ofDigest_eq_ok_iff (hlower : Lower hrp.toList) {x y : Bytes}
    (h : ofDigest hrp x = .ok address) : ofDigest hrp y = .ok address ↔
      (Hash.Sha256.digest x).take 20 = (Hash.Sha256.digest y).take 20 := by
  constructor
  · intro h'
    exact encode_inj hlower h' h
  · intro hsame
    rw [ofDigest, ← hsame]
    exact h

theorem eq_or_collide_of_ofDigest (hlower : Lower hrp.toList) {x y : Bytes}
    (h : ofDigest hrp x = .ok address) (h' : ofDigest hrp y = .ok address) :
    x = y ∨ Collide x y := by
  by_cases hsame : x = y
  · exact .inl hsame
  · exact .inr ⟨hsame, (ofDigest_eq_ok_iff hlower h).1 h'⟩

end Address

end Custody
