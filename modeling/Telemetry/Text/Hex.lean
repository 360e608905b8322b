import Telemetry.Bytes

/-!
# Hexadecimal text

Two lower-case digits a byte.  Capture files and mismatch messages use it.
-/

namespace Telemetry.Hex

/-- The digit for a value below sixteen. -/
def digit (value : Nat) : Char :=
  if value < 10 then Char.ofNat (48 + value) else Char.ofNat (87 + value)

/-- The value of a digit in either case. -/
def digitValue? (c : Char) : Option Nat :=
  if '0' ≤ c ∧ c ≤ '9' then some (c.toNat - 48)
  else if 'a' ≤ c ∧ c ≤ 'f' then some (c.toNat - 87)
  else if 'A' ≤ c ∧ c ≤ 'F' then some (c.toNat - 55)
  else none

def encode (bytes : Bytes) : String :=
  String.ofList (bytes.flatMap fun byte =>
    [digit (byte.toNat / 16), digit (byte.toNat % 16)])

/-- Refuses an odd number of digits and every other character. -/
def decode? : List Char → Option Bytes
  | [] => some []
  | [_] => none
  | high :: low :: rest => do
    let high ← digitValue? high
    let low ← digitValue? low
    let bytes ← decode? rest
    return UInt8.ofNat (high * 16 + low) :: bytes

end Telemetry.Hex
