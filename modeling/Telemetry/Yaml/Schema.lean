import Telemetry.Text.Numeral

/-!
# What plain text denotes

A plain scalar may stand for nothing, a truth value or a number as well as for
its own text.  Readers that want text take it as it is; a writer has to keep
text apart from everything else it could be read as.
-/

namespace Telemetry.Yaml.Schema

/-- The tag of integers. -/
def integerTag : Bytes := asciiBytes "tag:yaml.org,2002:int".toList

def isNull (text : List Char) : Bool :=
  ["", "~", "null", "Null", "NULL"].contains (String.ofList text)

def isBoolean (text : List Char) : Bool :=
  ["true", "True", "TRUE", "false", "False", "FALSE"].contains (String.ofList text)

def isSign (c : Char) : Bool := c = '+' || c = '-'

/-- The text without a sign in front. -/
def withoutSign : List Char → List Char
  | c :: rest => if isSign c then rest else c :: rest
  | [] => []

/-- Digits with a zero in front, which are a string and no number. -/
def isPadded (text : List Char) : Bool :=
  match withoutSign text with
  | '0' :: c :: rest => (c :: rest).all Char.isDigit
  | _ => false

/-- The radix that the text announces, and the digits behind it. -/
def radix? : List Char → Option (Nat × List Char)
  | '0' :: 'x' :: digits => some (16, digits)
  | '0' :: 'o' :: digits => some (8, digits)
  | '0' :: 'b' :: digits => some (2, digits)
  | _ => none

def atMost (limit : Nat) (value : Option Nat) : Option Nat := value.filter (· ≤ limit)

/-- A number without sign in decimal or in an announced radix. -/
def magnitude? (limit : Nat) (text : List Char) : Option Nat :=
  let announced := do
    let (radix, digits) ← radix? text
    atMost limit (Numeral.ofDigits? radix digits)
  announced <|> atMost limit (Numeral.ofDigits? 10 text)

/-- An unsigned integer of at most `limit`.  One plus sign may precede it. -/
def unsigned? (limit : Nat) (text : List Char) : Option Nat :=
  if isPadded text then
    none
  else
    match text with
    | '+' :: digits => magnitude? limit digits
    | digits => magnitude? limit digits

/-- A negative integer of magnitude at most `limit`. -/
def isNegative (limit : Nat) (text : List Char) : Bool :=
  match text with
  | '-' :: digits => !isPadded text && (magnitude? limit digits).isSome
  | _ => false

/-- Integers have up to 128 bits. -/
def isInteger (text : List Char) : Bool :=
  (unsigned? (1 <<< 128 - 1) text).isSome || isNegative (1 <<< 127) text

/-- Digits with an optional point among them: all digits, and how many of them
follow the point. -/
def fraction? (text : List Char) : Option (List Char × Nat) :=
  let (whole, rest) := text.span Char.isDigit
  let (point, decimals) := match rest with
    | '.' :: decimals => (true, decimals)
    | other => (false, other)
  if (point || decimals.isEmpty) && decimals.all Char.isDigit
      && !(whole.isEmpty && decimals.isEmpty) then
    some (whole ++ decimals, decimals.length)
  else
    none

/-- A power of ten with an optional sign; 0 where none is written. -/
def exponent? : List Char → Option Int
  | [] => some 0
  | _ :: power =>
    let value := (Numeral.ofDigits? 10 (withoutSign power)).map Int.ofNat
    if power.head? = some '-' then value.map (- ·) else value

/-- The least number that rounds to infinity in double precision. -/
def overflow : Nat := 1 <<< 1024 - 1 <<< 970

/-- Whether `digits * 10 ^ exponent` is finite in double precision.  The number
lies below `10 ^ (length + exponent)` and not below a tenth of that, so only one
order of magnitude needs the comparison. -/
def isFinite (digits : List Char) (exponent : Int) : Bool :=
  let significant := digits.dropWhile (· = '0')
  let order := significant.length + exponent
  if significant.isEmpty || order < 309 then
    true
  else if 309 < order then
    false
  else
    let value := (Numeral.ofDigits? 10 significant).getD 0
    if 0 ≤ exponent then value * Nat.pow 10 exponent.toNat < overflow
    else value < overflow * Nat.pow 10 (-exponent).toNat

/-- A decimal number with point, power of ten or both. -/
def isDecimal (text : List Char) : Bool :=
  let (front, power) := text.span (fun c => !(c = 'e' || c = 'E'))
  match fraction? front, exponent? power with
  | some (digits, decimals), some exponent => isFinite digits (exponent - decimals)
  | _, _ => false

def isInfinity (text : List Char) : Bool :=
  [".inf", ".Inf", ".INF"].contains (String.ofList (withoutSign text))

def isNotANumber (text : List Char) : Bool :=
  [".nan", ".NaN", ".NAN"].contains (String.ofList text)

def isFloat (text : List Char) : Bool :=
  isInfinity text || isNotANumber text || isDecimal (withoutSign text)

/-- Whether plain text would not be read as itself by everyone. -/
def isAmbiguous (text : List Char) : Bool :=
  isNull text || isBoolean text || isInteger text || isFloat text || isPadded text

end Telemetry.Yaml.Schema
