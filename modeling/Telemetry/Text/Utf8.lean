import Telemetry.Bytes

/-!
# UTF-8

Bytes are read one character at a time.  Where no character starts, the longest
run of bytes that some character could have started with (at least one byte) is
passed over as ill-formed.  Strict decoding refuses ill-formed bytes and lossy
decoding shows each such run as U+FFFD.
-/

namespace Telemetry.Utf8

/-- What stands at the front of a byte string. -/
inductive Piece where
  | character (c : Char)
  | illFormed
  deriving DecidableEq, Repr

/-- U+FFFD, which stands for ill-formed bytes. -/
def replacement : Char := Char.ofNat 0xFFFD

namespace Piece

def character? : Piece → Option Char
  | character c => some c
  | illFormed => none

def shown : Piece → Char
  | character c => c
  | illFormed => replacement

end Piece

/-- Low six bits of a continuation byte. -/
def continuation? (byte : UInt8) : Option Nat :=
  if 0x80 ≤ byte ∧ byte ≤ 0xBF then some (byte.toNat % 64) else none

/-- Whether `second` may follow the lead byte `lead` of three or four bytes.
The ranges leave out overlong forms, surrogates and numbers past U+10FFFF. -/
def mayFollow (lead second : UInt8) : Bool :=
  if lead = 0xE0 then 0xA0 ≤ second ∧ second ≤ 0xBF
  else if lead = 0xED then 0x80 ≤ second ∧ second ≤ 0x9F
  else if lead = 0xF0 then 0x90 ≤ second ∧ second ≤ 0xBF
  else if lead = 0xF4 then 0x80 ≤ second ∧ second ≤ 0x8F
  else 0x80 ≤ second ∧ second ≤ 0xBF

/-- The piece that begins with `lead`, and how many bytes of `rest` belong to
it as well. -/
def piece (lead : UInt8) (rest : Bytes) : Piece × Nat :=
  if lead < 0x80 then
    (.character (Char.ofNat lead.toNat), 0)
  else if 0xC2 ≤ lead ∧ lead ≤ 0xDF then
    match rest with
    | second :: _ =>
      match continuation? second with
      | some low => (.character (Char.ofNat (lead.toNat % 32 * 64 + low)), 1)
      | none => (.illFormed, 0)
    | [] => (.illFormed, 0)
  else if 0xE0 ≤ lead ∧ lead ≤ 0xEF then
    match rest with
    | second :: rest =>
      if mayFollow lead second then
        match rest.head?.bind continuation? with
        | some low =>
          let high := lead.toNat % 16 * 64 + second.toNat % 64
          (.character (Char.ofNat (high * 64 + low)), 2)
        | none => (.illFormed, 1)
      else (.illFormed, 0)
    | [] => (.illFormed, 0)
  else if 0xF0 ≤ lead ∧ lead ≤ 0xF4 then
    match rest with
    | second :: rest =>
      if mayFollow lead second then
        match rest.head?.bind continuation? with
        | some middle =>
          match (rest.drop 1).head?.bind continuation? with
          | some low =>
            let high := (lead.toNat % 8 * 64 + second.toNat % 64) * 64 + middle
            (.character (Char.ofNat (high * 64 + low)), 3)
          | none => (.illFormed, 2)
        | none => (.illFormed, 1)
      else (.illFormed, 0)
    | [] => (.illFormed, 0)
  else
    (.illFormed, 0)

/-- All pieces of a byte string in order. -/
def pieces : Bytes → List Piece
  | [] => []
  | lead :: rest =>
    let (front, more) := piece lead rest
    front :: pieces (rest.drop more)
termination_by bytes => bytes.length
decreasing_by
  simp only [List.length_drop, List.length_cons]
  omega

/-- The text that well-formed bytes spell. -/
def decode? (bytes : Bytes) : Option String :=
  ((pieces bytes).mapM Piece.character?).map String.ofList

/-- The text that any bytes spell, ill-formed runs replaced. -/
def decodeLossy (bytes : Bytes) : String :=
  String.ofList ((pieces bytes).map Piece.shown)

end Telemetry.Utf8
