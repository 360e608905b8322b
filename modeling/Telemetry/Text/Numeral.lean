import Telemetry.Text.Hex

/-!
# Numerals

Unsigned numbers in text, in any radix up to sixteen.
-/

namespace Telemetry.Numeral

/-- The value of a digit that is legal in `radix`. -/
def digitValue? (radix : Nat) (c : Char) : Option Nat :=
  match Hex.digitValue? c with
  | some value => if value < radix then some value else none
  | none => none

/-- The number that a non-empty string of digits denotes. -/
def ofDigits? (radix : Nat) (digits : List Char) : Option Nat :=
  if digits.isEmpty then none
  else digits.foldlM (fun value c => do return value * radix + (← digitValue? radix c)) 0

/-- Why a text is not a numeral of bounded size. -/
inductive Fault where
  | empty
  | invalidDigit
  | tooLarge
  deriving DecidableEq, Repr

def Fault.message : Fault → String
  | empty => "cannot parse integer from empty string"
  | invalidDigit => "invalid digit found in string"
  | tooLarge => "number too large to fit in target type"

/-- Decimal digits read from left to right.  The first digit that is illegal or
takes the value past `limit` decides the fault. -/
def boundedDigits (limit : Nat) : Nat → List Char → Except Fault Nat
  | value, [] => .ok value
  | value, c :: rest =>
    match digitValue? 10 c with
    | none => .error .invalidDigit
    | some digit =>
      if limit < value * 10 + digit then .error .tooLarge
      else boundedDigits limit (value * 10 + digit) rest

/-- A decimal numeral of at most `limit`, with an optional plus sign. -/
def bounded (limit : Nat) (text : List Char) : Except Fault Nat :=
  match text with
  | [] => .error .empty
  | ['+'] => .error .invalidDigit
  | '+' :: digits => boundedDigits limit 0 digits
  | digits => boundedDigits limit 0 digits

end Telemetry.Numeral
