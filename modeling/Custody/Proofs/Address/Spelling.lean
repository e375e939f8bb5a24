import Custody.Bank.Balances
import Custody.Escrow.Lifecycle
import Custody.Proofs.Address.RoundTrip
import Custody.Proofs.Escrow.Outcome

/-!
# How an account is spelled

Bytes have two addresses under a prefix, one in lower case and one in upper case. Either is accepted
as it is spelled, so they pass for different accounts.
-/

namespace Custody.Address

open Text (Lower Upper OneCase)

variable {hrp : String} {a b : Address} {raw : Bytes}

/-- The addresses of an account are what is written for it, and that in upper case. -/
theorem payload_eq_ok_iff_spelling {s : Address} (hlower : Lower hrp.toList) (hsize : Sized raw)
    (hs : encode hrp raw = .ok s) : payload hrp a = .ok raw ↔ a = s ∨ a = s.toUpper := by
  rw [← Text.oneCase_and_toLower_eq_iff (lower_of_encode hlower hs), payload_eq_ok]
  constructor
  · rintro ⟨-, -, hcase, hencode⟩
    exact ⟨hcase, Except.ok.inj (hencode.symm.trans hs)⟩
  · rintro ⟨hcase, rfl⟩
    exact ⟨hlower, hsize, hcase, hs⟩

/-- Two addresses of one account are the same value exactly if they are in the same case: what is
written for the account in lower case, and its upper-case spelling in upper case. There is no third
spelling. -/
theorem account_spelled (ha : payload hrp a = .ok raw) (hb : payload hrp b = .ok raw) :
    ∃ s, encode hrp raw = .ok s ∧
      (∀ c, payload hrp c = .ok raw ↔ c = s ∨ c = s.toUpper) ∧
      (validate hrp a = .ok s ↔ Lower a.toList) ∧
      (validate hrp a = .ok s.toUpper ↔ Upper a.toList) ∧
      (validate hrp a = validate hrp b ↔
        Lower a.toList ∧ Lower b.toList ∨ Upper a.toList ∧ Upper b.toList) := by
  obtain ⟨hlower, hsize, hcase, hencode⟩ := payload_eq_ok.1 ha
  obtain ⟨-, -, -, hencode'⟩ := payload_eq_ok.1 hb
  have hsame : b.toLower = a.toLower := Except.ok.inj (hencode'.symm.trans hencode)
  have hupper : a.toLower.toUpper = a.toUpper := Text.toUpper_toLower a
  refine ⟨a.toLower, hencode, fun c => payload_eq_ok_iff_spelling hlower hsize hencode, ?_, ?_, ?_⟩
  · rw [validate_of_payload ha, Except.ok.injEq, eq_comm]
    exact Text.toLower_eq_iff
  · rw [validate_of_payload ha, Except.ok.injEq, hupper, eq_comm]
    exact Text.toUpper_eq_iff
  · rw [validate_of_payload ha, validate_of_payload hb, Except.ok.injEq]
    constructor
    · rintro rfl
      rcases hcase with hlow | hup
      · exact .inl ⟨hlow, hlow⟩
      · exact .inr ⟨hup, hup⟩
    · rintro (⟨hlow, hlow'⟩ | ⟨hup, hup'⟩)
      · rw [← Text.toLower_eq_iff.2 hlow, ← hsame, Text.toLower_eq_iff.2 hlow']
      · rw [← Text.toUpper_eq_iff.2 hup, ← hupper, ← hsame, Text.toUpper_toLower,
          Text.toUpper_eq_iff.2 hup']

theorem account_spelled_both_cases :
    let raw := (Hash.Sha256.digest (Bytes.ofString "alice")).take 20
    let a := "maany190vqdjtlpcq27xslcveglfmr4ynfwg7g9637yr"
    let b := "MAANY190VQDJTLPCQ27XSLCVEGLFMR4YNFWG7G9637YR"
    payload "maany" a = .ok raw ∧ payload "maany" b = .ok raw ∧
      (validate "maany" b = .ok a ↔ Lower b.toList) := by
  intro raw a b
  have ha : payload "maany" a = .ok raw := by decide +kernel
  have hb : payload "maany" b = .ok raw := by decide +kernel
  have hencode : encode "maany" raw = .ok a := by decide +kernel
  obtain ⟨s, hs, -, hlower, -, -⟩ := account_spelled hb ha
  obtain rfl := Except.ok.inj (hencode.symm.trans hs)
  exact ⟨ha, hb, hlower⟩

/-- The upper-case spelling is another value for the same account, and under that value the account
cannot cancel what it has paid for under the other. -/
theorem account_split_by_case :
    let raw := (Hash.Sha256.digest (Bytes.ofString "alice")).take 20
    let a := "maany190vqdjtlpcq27xslcveglfmr4ynfwg7g9637yr"
    let b := "MAANY190VQDJTLPCQ27XSLCVEGLFMR4YNFWG7G9637YR"
    let coin : Coin := ⟨"umaany", ⟨100, by decide⟩⟩
    let m : Initiate := ⟨a, "dex-1", coin, "", 0, 0⟩
    let opened := (Vault.initiate {} m).after ⟨.empty, (Balances.empty "maany").set a coin⟩
    (payload "maany" a = .ok raw ∧ payload "maany" b = .ok raw) ∧
      (validate "maany" a = .ok a ∧ validate "maany" b = .ok b ∧ a ≠ b) ∧
      encode "maany" raw = .ok a ∧
      (Vault.cancel {} ⟨a, "dex-1", "umaany"⟩).result opened =
        .ok ((m.escrow "1").settle .canceled) ∧
      (Vault.cancel {} ⟨b, "dex-1", "umaany"⟩).result opened =
        .error (.notFound (.pendingEscrow "dex-1" "umaany")) := by
  decide +kernel

end Custody.Address
