/-!
# Byte strings and big-endian numbers

Every number on the wire is unsigned and travels most significant byte first.
One pair of functions serves all field widths: `bigEndian` writes the low-order
bytes of a number and `bigEndianValue` reads a byte string as a base-256
numeral.
-/

namespace Telemetry

abbrev Bytes := List UInt8

/-- Text in ASCII, one byte a character. -/
def asciiBytes (text : List Char) : Bytes := text.map fun c => UInt8.ofNat c.toNat

/-- The `width` low-order bytes of `value`, most significant first. -/
def bigEndian : Nat → Nat → Bytes
  | 0, _ => []
  | width + 1, value => bigEndian width (value / 256) ++ [UInt8.ofNat value]

/-- The number that `bytes` denote in base 256, most significant first. -/
def bigEndianValue (bytes : Bytes) : Nat :=
  bytes.foldl (fun value byte => value * 256 + byte.toNat) 0

/-- The number stored in the `width` bytes from `offset` on. -/
def numberAt (bytes : Bytes) (offset width : Nat) : Nat :=
  bigEndianValue ((bytes.drop offset).take width)

/-- The bytes with `field` written over those from `offset` on. -/
def overwrite (bytes : Bytes) (offset : Nat) (field : Bytes) : Bytes :=
  bytes.take offset ++ field ++ bytes.drop (offset + field.length)

@[simp]
theorem length_bigEndian (width value : Nat) :
    (bigEndian width value).length = width := by
  induction width generalizing value with
  | zero => rfl
  | succ width ih => simp [bigEndian, ih]

@[simp]
theorem bigEndianValue_nil : bigEndianValue [] = 0 := rfl

theorem bigEndianValue_append_singleton (bytes : Bytes) (byte : UInt8) :
    bigEndianValue (bytes ++ [byte]) = bigEndianValue bytes * 256 + byte.toNat := by
  simp [bigEndianValue]

/-- Reading back what was written gives the number modulo the field's range. -/
theorem bigEndianValue_bigEndian (width value : Nat) :
    bigEndianValue (bigEndian width value) = value % (1 <<< (8 * width)) := by
  induction width generalizing value with
  | zero => simp [bigEndian, Nat.mod_one]
  | succ width ih =>
    have hrange : 1 <<< (8 * (width + 1)) = 256 * 1 <<< (8 * width) := by
      rw [Nat.mul_add, Nat.shiftLeft_add, Nat.shiftLeft_eq _ (8 * 1), Nat.mul_comm]
    rw [bigEndian, bigEndianValue_append_singleton, ih, hrange, Nat.mod_mul,
      UInt8.toNat_ofNat']
    omega

end Telemetry
