import Telemetry.Text.Numeral

/-!
# Collector addresses

An IPv4 address and a port, written `a.b.c.d:port`.  Hosts are also read in the
older forms with fewer parts or other radices.
-/

namespace Telemetry

structure Address where
  octets : Bytes
  port : UInt16
  deriving DecidableEq, Repr

namespace Address

/-- No address of the same family in particular and no port in particular. -/
def unspecified (address : Address) : Address where
  octets := List.replicate address.octets.length 0
  port := 0

/-- A number in a host: hexadecimal behind `0x`, octal behind any other zero and
decimal elsewhere. -/
def part? : List Char → Option Nat
  | '0' :: c :: digits =>
    if c = 'x' || c = 'X' then Numeral.ofDigits? 16 digits
    else Numeral.ofDigits? 8 (c :: digits)
  | digits => Numeral.ofDigits? 10 digits

/-- The octets of a host of up to four parts.  Every part is an octet, but the
last fills all octets that are left. -/
def octets? : Nat → List Nat → Option Bytes
  | left, [last] => if last < 1 <<< (8 * left) then some (bigEndian left last) else none
  | left + 1, part :: parts =>
    if part < 256 ∧ 0 < left then (octets? left parts).map (UInt8.ofNat part :: ·) else none
  | _, _ => none

/-- The port, with an optional plus sign and any number of leading zeros. -/
def port? (digits : List Char) : Option UInt16 :=
  match Numeral.bounded 65535 digits with
  | .ok value => some (.ofNat value)
  | .error _ => none

/-- The parts of a text between occurrences of `separator`. -/
def splitAt (separator : Char) : List Char → List (List Char)
  | [] => [[]]
  | c :: rest =>
    if c = separator then
      [] :: splitAt separator rest
    else
      match splitAt separator rest with
      | part :: parts => (c :: part) :: parts
      | [] => [[c]]

/-- Host and port stand on either side of the only colon. -/
def ofEndpoint? (endpoint : String) : Option Address :=
  match splitAt ':' endpoint.toList with
  | [host, port] => do
    let octets ← octets? 4 (← (splitAt '.' host).mapM part?)
    let port ← port? port
    return { octets, port }
  | _ => none

instance : ToString Address where
  toString address :=
    String.intercalate "." (address.octets.map toString) ++ ":" ++ toString address.port

end Address

end Telemetry
