import Mathlib
import Telemetry.Bytes

/-!
# Fields of a byte string

A field is a run of bytes that holds a big-endian number.  Reading a field and
writing it back at the same width gives the bytes that were there, so the fields
of a record determine it as far as they cover it.
-/

namespace Telemetry

theorem bigEndianValue_lt (bytes : Bytes) : bigEndianValue bytes < 256 ^ bytes.length := by
  induction bytes using List.reverseRecOn with
  | nil => exact Nat.one_pos
  | append_singleton bytes byte ih =>
    have hbyte := byte.toNat_lt
    rw [bigEndianValue_append_singleton, List.length_append, List.length_singleton, pow_succ]
    omega

/-- Writing what was read reproduces the bytes. -/
theorem bigEndian_bigEndianValue (bytes : Bytes) :
    bigEndian bytes.length (bigEndianValue bytes) = bytes := by
  induction bytes using List.reverseRecOn with
  | nil => rfl
  | append_singleton bytes byte ih =>
    have hbyte := byte.toNat_lt
    have hhigh : (bigEndianValue bytes * 256 + byte.toNat) / 256 = bigEndianValue bytes := by
      omega
    have hlow : UInt8.ofNat (bigEndianValue bytes * 256 + byte.toNat) = byte := by
      apply UInt8.toNat_inj.mp
      rw [UInt8.toNat_ofNat']
      omega
    rw [bigEndianValue_append_singleton, List.length_append, List.length_singleton, bigEndian,
      hhigh, hlow, ih]

theorem numberAt_lt (bytes : Bytes) (offset width : Nat) :
    numberAt bytes offset width < 256 ^ width :=
  calc numberAt bytes offset width
      < 256 ^ ((bytes.drop offset).take width).length := bigEndianValue_lt _
    _ ≤ 256 ^ width := Nat.pow_le_pow_right (by decide) (List.length_take_le _ _)

/-- A field of one byte holds that byte. -/
theorem numberAt_byte {bytes : Bytes} {offset : Nat} {byte : UInt8}
    (h : bytes[offset]? = some byte) : numberAt bytes offset 1 = byte.toNat := by
  obtain ⟨hoffset, hbyte⟩ := List.getElem?_eq_some_iff.mp h
  rw [numberAt, List.drop_eq_getElem_cons hoffset, hbyte, List.take_succ_cons, List.take_zero]
  simp [bigEndianValue]

@[simp]
theorem toNat_uint16_numberAt (bytes : Bytes) (offset : Nat) :
    (UInt16.ofNat (numberAt bytes offset 2)).toNat = numberAt bytes offset 2 := by
  rw [UInt16.toNat_ofNat']
  exact Nat.mod_eq_of_lt (numberAt_lt bytes offset 2)

@[simp]
theorem toNat_uint32_numberAt (bytes : Bytes) (offset : Nat) :
    (UInt32.ofNat (numberAt bytes offset 4)).toNat = numberAt bytes offset 4 := by
  rw [UInt32.toNat_ofNat']
  exact Nat.mod_eq_of_lt (numberAt_lt bytes offset 4)

@[simp]
theorem toNat_uint64_numberAt (bytes : Bytes) (offset : Nat) :
    (UInt64.ofNat (numberAt bytes offset 8)).toNat = numberAt bytes offset 8 := by
  rw [UInt64.toNat_ofNat']
  exact Nat.mod_eq_of_lt (numberAt_lt bytes offset 8)

/-- A field that lies inside the bytes is reproduced by writing its number. -/
theorem bigEndian_numberAt {bytes : Bytes} {offset width : Nat}
    (h : offset + width ≤ bytes.length) :
    bigEndian width (numberAt bytes offset width) = (bytes.drop offset).take width := by
  have hlength : ((bytes.drop offset).take width).length = width := by
    rw [List.length_take, List.length_drop]
    omega
  have hfield := bigEndian_bigEndianValue ((bytes.drop offset).take width)
  rwa [hlength] at hfield

/-- What follows a field does not matter to it. -/
theorem numberAt_append {front : Bytes} (rest : Bytes) {offset width : Nat}
    (h : offset + width ≤ front.length) :
    numberAt (front ++ rest) offset width = numberAt front offset width := by
  rw [numberAt, numberAt, List.drop_append_of_le_length (by omega),
    List.take_append_of_le_length (by rw [List.length_drop]; omega)]

theorem numberAt_take {bytes : Bytes} {count offset width : Nat} (h : offset + width ≤ count) :
    numberAt (bytes.take count) offset width = numberAt bytes offset width := by
  rw [numberAt, numberAt, List.drop_take, List.take_take, Nat.min_eq_left (by omega)]

/-- In a field of two bytes the first one counts 256 times. -/
theorem numberAt_two_bytes {bytes : Bytes} {offset : Nat} {high low : UInt8}
    (hhigh : bytes[offset]? = some high) (hlow : bytes[offset + 1]? = some low) :
    numberAt bytes offset 2 = high.toNat * 256 + low.toNat := by
  obtain ⟨hfirst, hhigh⟩ := List.getElem?_eq_some_iff.mp hhigh
  obtain ⟨hsecond, hlow⟩ := List.getElem?_eq_some_iff.mp hlow
  rw [numberAt, List.drop_eq_getElem_cons hfirst, hhigh, List.drop_eq_getElem_cons hsecond, hlow]
  simp [bigEndianValue]

/-- Two neighbouring fields are one wider field. -/
theorem field_append_field (bytes : Bytes) (offset first second : Nat) :
    (bytes.drop offset).take first ++ (bytes.drop (offset + first)).take second =
      (bytes.drop offset).take (first + second) := by
  rw [List.take_add, List.drop_drop]

end Telemetry
