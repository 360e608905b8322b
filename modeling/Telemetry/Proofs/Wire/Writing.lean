import Telemetry.Proofs.Wire.Frames

/-!
# Reading back what was written

Every number is written into a field that can hold it, so a written header is
read as itself and a written event as the record that describes it.  A frame
therefore carries its events whatever follows it, and events that the length
field cannot cover make no frame at all.
-/

namespace Telemetry

/-! ## Fields behind other bytes -/

/-- Bytes in front of a field only shift it. -/
theorem numberAt_append_right {front : Bytes} {offset : Nat} (rest : Bytes) (width : Nat)
    (h : front.length ≤ offset) :
    numberAt (front ++ rest) offset width = numberAt rest (offset - front.length) width := by
  rw [numberAt, numberAt, List.drop_append, List.drop_eq_nil_of_le h, List.nil_append]

/-- A field holds the number that was written there, if it is wide enough. -/
theorem numberAt_bigEndian {width value : Nat} (rest : Bytes) (h : value < 256 ^ width) :
    numberAt (bigEndian width value ++ rest) 0 width = value := by
  have hrange : 1 <<< (8 * width) = 256 ^ width := by
    rw [Nat.one_shiftLeft, Nat.pow_mul]
  rw [numberAt, List.drop_zero, List.take_left' (length_bigEndian width value),
    bigEndianValue_bigEndian, hrange, Nat.mod_eq_of_lt h]

theorem numberAt_uint16 (word : UInt16) (rest : Bytes) :
    numberAt (bigEndian 2 word.toNat ++ rest) 0 2 = word.toNat :=
  numberAt_bigEndian rest word.toNat_lt

theorem numberAt_uint32 (word : UInt32) (rest : Bytes) :
    numberAt (bigEndian 4 word.toNat ++ rest) 0 4 = word.toNat :=
  numberAt_bigEndian rest word.toNat_lt

theorem numberAt_uint64 (word : UInt64) (rest : Bytes) :
    numberAt (bigEndian 8 word.toNat ++ rest) 0 8 = word.toNat :=
  numberAt_bigEndian rest word.toNat_lt

theorem numberAt_cons_zero (byte : UInt8) (rest : Bytes) :
    numberAt (byte :: rest) 0 1 = byte.toNat := by
  simp [numberAt, bigEndianValue]

theorem numberAt_cons_succ (byte : UInt8) (rest : Bytes) (offset width : Nat) :
    numberAt (byte :: rest) (offset + 1) width = numberAt rest offset width := rfl

/-! ## Headers -/

namespace Header

@[simp]
theorem length_toBytes (header : Header) : header.toBytes.length = 32 := by
  simp [toBytes]

/-- Whatever follows it, a header is found where it was written. -/
theorem ofBytes_toBytes (header : Header) (rest : Bytes) :
    ofBytes (header.toBytes ++ rest) = header := by
  simp (disch := simp) [ofBytes, toBytes, numberAt_append_right, numberAt_cons_zero,
    numberAt_cons_succ, numberAt_uint16, numberAt_uint32, numberAt_uint64]

/-- A valid header is read as itself once the payload it announces is there. -/
theorem decode_toBytes {header : Header} {rest : Bytes} (hvalid : header.validate = .ok ())
    (h : header.payloadLength.toNat ≤ rest.length) :
    decode (header.toBytes ++ rest) = .ok header := by
  have hlong : ¬ (header.toBytes ++ rest).length < length := by
    rw [List.length_append, length_toBytes, length]
    omega
  have hpayload : ¬ (header.toBytes ++ rest).length - length < header.payloadLength.toNat := by
    rw [List.length_append, length_toBytes, length]
    omega
  simp only [decode, if_neg hlong, ofBytes_toBytes, hvalid, if_neg hpayload]

/-- A valid header is refused as long as a part of the payload it announces is missing. -/
theorem decode_of_cut {header : Header} {rest : Bytes} (hvalid : header.validate = .ok ())
    (h : rest.length < header.payloadLength.toNat) :
    decode (header.toBytes ++ rest) =
      .error (.payloadOutOfRange header.payloadLength.toNat rest.length) := by
  have hlong : ¬ (header.toBytes ++ rest).length < length := by
    rw [List.length_append, length_toBytes, length]
    omega
  have hlength : (header.toBytes ++ rest).length - length = rest.length := by
    rw [List.length_append, length_toBytes, length]
    omega
  simp only [decode, if_neg hlong, ofBytes_toBytes, hvalid, hlength, if_pos h]

/-- A header made for this protocol is valid. -/
theorem validate_make (messageType : MessageType) (sequence : UInt32) (timestamp : UInt64)
    (payloadLength : UInt32) :
    (make messageType sequence timestamp payloadLength).validate = .ok () := by
  simp [validate, make]

end Header

/-! ## Events -/

namespace Level

theorem code_injective : Function.Injective code := by
  intro left right heq
  have hcode := congrArg ofCode? heq
  simpa using hcode

end Level

namespace Event

/-- Two events are one if an observer finds the same in both. -/
theorem eq_of_fields {left right : Event} (hid : left.id = right.id)
    (hlevel : left.level = right.level) (htimestamp : left.timestamp = right.timestamp)
    (hpayload : left.payload = right.payload) : left = right := by
  have hsize : left.size = right.size := by
    rw [← length_payload, ← length_payload, hpayload]
  have hbuffer : left.buffer = right.buffer := by
    apply Vector.toList_inj.mp
    rw [buffer_eq, buffer_eq, hpayload, hsize]
  cases left
  cases right
  cases hid
  cases hlevel
  cases htimestamp
  cases hsize
  cases hbuffer
  rfl

@[simp]
theorem length_encode (event : Event) : event.encode.length = event.encodedLength := by
  simp [encode, encodedLength, fixedLength]
  omega

/-- What is written describes the event. -/
theorem describes_encode (event : Event) : Describes event.encode event where
  id_eq := by
    simp [encode, numberAt_uint32]
  level_eq := by
    simp (disch := simp) [encode, numberAt_append_right, numberAt_cons_zero]
  size_eq := by
    have hsize : event.size < 256 ^ 2 := lt_of_le_of_lt event.size_le (by decide)
    simp (disch := simp) [encode, numberAt_append_right, numberAt_cons_succ,
      numberAt_bigEndian _ hsize]
  timestamp_eq := by
    simp (disch := simp) [encode, numberAt_append_right, numberAt_cons_succ, numberAt_uint64]
  payload_eq := by
    rw [encode, List.drop_left' (by simp)]

theorem isRecord_encode (event : Event) : IsRecord event.encode where
  fixed_le := by
    rw [length_encode, encodedLength, fixedLength]
    omega
  level_le := by
    rw [← event.describes_encode.level_eq]
    exact UInt8.le_iff_toNat_le.mp event.level.code_le
  size_le := by
    rw [← event.describes_encode.size_eq]
    exact event.size_le
  length_eq := by
    rw [← event.describes_encode.size_eq, length_encode, encodedLength, fixedLength]

end Event

/-- A record describes one event only. -/
theorem Describes.unique {record : Bytes} {left right : Event} (hleft : Describes record left)
    (hright : Describes record right) : left = right := by
  apply Event.eq_of_fields
  · exact UInt32.toNat_inj.mp (hleft.id_eq.trans hright.id_eq.symm)
  · exact Level.code_injective
      (UInt8.toNat_inj.mp (hleft.level_eq.trans hright.level_eq.symm))
  · exact UInt64.toNat_inj.mp (hleft.timestamp_eq.trans hright.timestamp_eq.symm)
  · exact hleft.payload_eq.trans hright.payload_eq.symm

/-! ## Payloads -/

/-- The payload that carries some events splits into what was written for each. -/
theorem splits_flatMap_encode (events : List Event) :
    Splits (events.flatMap Event.encode) (events.map Event.encode) where
  flatten_eq := List.flatMap_def.symm
  isRecord := by
    intro record hmem
    obtain ⟨event, -, rfl⟩ := List.mem_map.mp hmem
    exact event.isRecord_encode

theorem describes_map_encode (events : List Event) :
    List.Forall₂ Describes (events.map Event.encode) events := by
  induction events with
  | nil => exact .nil
  | cons event events ih => exact .cons event.describes_encode ih

theorem Event.decodeAll_flatMap_encode (events : List Event) :
    decodeAll (events.flatMap encode) = .ok events := by
  obtain ⟨read, hread, hdescribes⟩ := (splits_flatMap_encode events).decodeAll_eq
  have hunique : Relator.RightUnique Describes := fun _ _ _ => Describes.unique
  rw [hread, hunique.forall₂ hdescribes (describes_map_encode events)]

/-! ## Frames -/

namespace Frame

theorem payloadSize_eq_sum (events : List Event) :
    payloadSize events = (events.map Event.encodedLength).sum := by
  induction events with
  | nil => rfl
  | cons event events ih => rw [payloadSize, ih, List.map_cons, List.sum_cons]

theorem length_flatMap_encode (events : List Event) :
    (events.flatMap Event.encode).length = payloadSize events := by
  simp [payloadSize_eq_sum, List.length_flatMap]

/-- The header of a frame with these events. -/
def headerFor (sequence : UInt32) (timestamp : UInt64) (events : List Event) : Header :=
  .make .eventBatch sequence timestamp (.ofNat (payloadSize events))

section Encode

variable {events : List Event} (sequence : UInt32) (timestamp : UInt64)

theorem toNat_payloadLength_headerFor (h : payloadSize events ≤ maxPayloadSize) :
    (headerFor sequence timestamp events).payloadLength.toNat = payloadSize events := by
  apply UInt32.toNat_ofNat_of_lt'
  exact Nat.lt_of_le_pred (by decide) h

/-- Events that the length field can cover are written behind their header. -/
theorem encode_of_le (h : payloadSize events ≤ maxPayloadSize) :
    encode sequence timestamp events =
      .ok ((headerFor sequence timestamp events).toBytes ++ events.flatMap Event.encode) := by
  have hvalid : (headerFor sequence timestamp events).validate = .ok () :=
    Header.validate_make _ _ _ _
  rw [encode, if_pos h]
  simp only [Header.encode]
  rw [← headerFor, hvalid]

theorem decode_append (h : payloadSize events ≤ maxPayloadSize) (rest : Bytes) :
    decode ((headerFor sequence timestamp events).toBytes ++ events.flatMap Event.encode ++ rest) =
      .ok { header := headerFor sequence timestamp events, events } := by
  have hlength := toNat_payloadLength_headerFor sequence timestamp h
  rw [← length_flatMap_encode] at hlength
  have hvalid : (headerFor sequence timestamp events).validate = .ok () :=
    Header.validate_make _ _ _ _
  have hheader : Header.decode ((headerFor sequence timestamp events).toBytes ++
      events.flatMap Event.encode ++ rest) = .ok (headerFor sequence timestamp events) := by
    rw [List.append_assoc]
    apply Header.decode_toBytes hvalid
    rw [hlength, List.length_append]
    omega
  have hpayload : payloadOf (headerFor sequence timestamp events)
      ((headerFor sequence timestamp events).toBytes ++ events.flatMap Event.encode ++ rest) =
        events.flatMap Event.encode := by
    rw [payloadOf, Header.length, List.append_assoc,
      List.drop_left' (Header.length_toBytes _), List.take_left' hlength.symm]
  rw [decode_of_header hheader rfl, hpayload, Event.decodeAll_flatMap_encode]
  rfl

end Encode

/-- Events that the length field can cover make a frame of the length that follows
from theirs, and whatever follows it the frame is read as those events under that
number and time.  Other events make no frame. -/
theorem written_frame_carries_events (sequence : UInt32) (timestamp : UInt64)
    (events : List Event) :
    let size := (events.map Event.encodedLength).sum
    (size ≤ 2 ^ 32 - 1 →
      ∃ bytes header, encode sequence timestamp events = .ok bytes ∧
        bytes.length = 32 + size ∧
        (∀ rest, decode (bytes ++ rest) = .ok { header, events }) ∧
        header.sequence = sequence ∧ header.timestamp = timestamp ∧
        header.kind? = some .eventBatch ∧ header.payloadLength.toNat = size ∧
        header.checksum = 0 ∧ header.reserved = 0) ∧
      (2 ^ 32 - 1 < size →
        encode sequence timestamp events = .error (.invalidArgument (.frameTooLarge size))) := by
  intro size
  have hsize : payloadSize events = size := payloadSize_eq_sum events
  constructor
  · intro hle
    rw [← hsize] at hle
    refine ⟨_, headerFor sequence timestamp events, encode_of_le sequence timestamp hle, ?_,
      decode_append sequence timestamp hle, rfl, rfl, rfl, ?_, rfl, rfl⟩
    · rw [List.length_append, Header.length_toBytes, length_flatMap_encode, hsize]
    · rw [toNat_payloadLength_headerFor sequence timestamp hle, hsize]
  · intro hlt
    rw [← hsize] at hlt ⊢
    exact if_neg (not_le.mpr hlt)

/-- The highest number, with bytes behind the frame that would make another event;
and records of 2^32 bytes in all, which is one byte too many. -/
theorem written_frame_at_length_limit :
    let event : Event := { Event.blank with id := 7, level := .warning }
    (∃ bytes frame, encode 0xFFFFFFFF 5 [event, .blank] = .ok bytes ∧ bytes.length = 64 ∧
      decode (bytes ++ Event.encode event) = .ok frame ∧
      frame.header.sequence = 0xFFFFFFFF ∧ frame.events = [event, .blank]) ∧
      encode 0 0 (List.replicate 0x10000000 Event.blank) =
        .error (.invalidArgument (.frameTooLarge 0x100000000)) := by
  intro event
  constructor
  · obtain ⟨hwritten, -⟩ := written_frame_carries_events 0xFFFFFFFF 5 [event, .blank]
    obtain ⟨bytes, header, hencode, hlength, hdecode, hsequence, -⟩ := hwritten (by decide)
    exact ⟨bytes, { header, events := [event, .blank] }, hencode, hlength, hdecode _, hsequence,
      rfl⟩
  · obtain ⟨-, hrefused⟩ :=
      written_frame_carries_events 0 0 (List.replicate 0x10000000 Event.blank)
    have hsize : ((List.replicate 0x10000000 Event.blank).map Event.encodedLength).sum =
        0x100000000 := by
      rw [List.map_replicate, List.sum_replicate]
      rfl
    rw [hsize] at hrefused
    exact hrefused (by decide)

end Frame

end Telemetry
