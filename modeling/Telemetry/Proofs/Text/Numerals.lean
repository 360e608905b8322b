import Mathlib
import Telemetry.Text.Numeral

/-!
# Decimal numerals

A number is written in decimal without a sign.  Reading the digits one after the
other gives the number again, so no two numbers are written alike.
-/

namespace Telemetry

theorem Hex.digitValue?_digitChar {digit : Nat} (h : digit < 10) :
    Hex.digitValue? digit.digitChar = some digit := by
  revert digit
  decide

namespace Numeral

/-- The digits of a number, read one after the other behind what stands in front of
them. -/
theorem foldlM_toDigits (number : Nat) :
    (Nat.toDigits 10 number).foldlM
      (fun value c => do return value * 10 + (← digitValue? 10 c)) 0 = some number := by
  induction number using Nat.strongRecOn with
  | ind number ih =>
    by_cases hlt : number < 10
    · rw [Nat.toDigits_of_lt_base hlt]
      simp [digitValue?, Hex.digitValue?_digitChar hlt, hlt]
    · rw [Nat.toDigits_of_base_le (by decide) (by omega), List.foldlM_append,
        ih (number / 10) (by omega)]
      have hdigit : number % 10 < 10 := Nat.mod_lt _ (by decide)
      simp [digitValue?, Hex.digitValue?_digitChar hdigit, hdigit]
      omega

theorem ofDigits?_toDigits (number : Nat) :
    ofDigits? 10 (Nat.toDigits 10 number) = some number := by
  rw [ofDigits?, if_neg (by simp [List.isEmpty_iff]), foldlM_toDigits]

/-- The digits that a number is written with. -/
theorem toList_toString (number : Nat) : (toString number).toList = Nat.toDigits 10 number := by
  rw [Nat.toString_eq_repr, Nat.repr_eq_ofList_toDigits, String.toList_ofList]

theorem toString_injective : Function.Injective (toString : Nat → String) := by
  intro left right heq
  have hread := congrArg (ofDigits? 10 ·.toList) heq
  simpa only [toList_toString, ofDigits?_toDigits, Option.some_inj] using hread

theorem toString_word32_inj {left right : UInt32} :
    toString left = toString right ↔ left = right := by
  rw [← UInt32.toNat_inj]
  exact toString_injective.eq_iff

theorem toString_word64_inj {left right : UInt64} :
    toString left = toString right ↔ left = right := by
  rw [← UInt64.toNat_inj]
  exact toString_injective.eq_iff

end Numeral

end Telemetry
