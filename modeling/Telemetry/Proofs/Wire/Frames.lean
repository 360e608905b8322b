import Telemetry.Frame
import Telemetry.Proofs.Wire.Records

/-!
# Reading a frame

A frame is read exactly if its header is and the payload that the header
announces splits into records.  What was read determines the bytes it was read
from, up to the reserved byte of each record; and a payload that does not split
is refused with the error of the first record that cannot be read.
-/

namespace Telemetry

namespace Header

/-- The fields cover the header, so writing them back reproduces its bytes. -/
theorem toBytes_ofBytes {bytes : Bytes} (h : 32 ≤ bytes.length) :
    (ofBytes bytes).toBytes = bytes.take 32 := by
  have hbytes (offset : Nat) (hoffset : offset + 2 ≤ 32) :
      [UInt8.ofNat (numberAt bytes offset 1), UInt8.ofNat (numberAt bytes (offset + 1) 1)] =
        (bytes.drop offset).take 2 := by
    rw [← field_append_field bytes offset 1 1, ← bigEndian_numberAt (by omega),
      ← bigEndian_numberAt (by omega)]
    simp [bigEndian]
  have hfield (offset width : Nat) (hinside : offset + width ≤ 32) :
      bigEndian width (numberAt bytes offset width) = (bytes.drop offset).take width :=
    bigEndian_numberAt (by omega)
  rw [toBytes, ofBytes]
  simp only [toNat_uint16_numberAt, toNat_uint32_numberAt, toNat_uint64_numberAt]
  rw [hfield 0 4 (by omega), hbytes 4 (by omega), hfield 6 2 (by omega), hfield 8 4 (by omega),
    hfield 12 8 (by omega), hfield 20 4 (by omega), hfield 24 4 (by omega),
    hfield 28 4 (by omega), field_append_field bytes 0 4 2, field_append_field bytes 0 6 2,
    field_append_field bytes 0 8 4, field_append_field bytes 0 12 8,
    field_append_field bytes 0 20 4, field_append_field bytes 0 24 4,
    field_append_field bytes 0 28 4, List.drop_zero]

theorem decode_eq_ok {bytes : Bytes} {header : Header} (h : decode bytes = .ok header) :
    header = ofBytes bytes ∧ header.validate = .ok () ∧
      32 + header.payloadLength.toNat ≤ bytes.length := by
  simp only [decode] at h
  split at h
  · cases h
  · next hlength =>
    split at h
    · cases h
    · next hvalid =>
      split at h
      · cases h
      · next hpayload =>
        cases h
        rw [length] at hlength hpayload
        exact ⟨rfl, hvalid, by omega⟩

/-- A header that was read is written as the bytes it was read from. -/
theorem encode_of_decode {bytes : Bytes} {header : Header} (h : decode bytes = .ok header) :
    header.encode = .ok (bytes.take 32) := by
  obtain ⟨rfl, hvalid, hlength⟩ := decode_eq_ok h
  rw [encode, hvalid, toBytes_ofBytes (by omega)]

end Header

namespace Frame

/-- The bytes that a header announces, as far as they are there. -/
def payloadOf (header : Header) (bytes : Bytes) : Bytes :=
  (bytes.drop Header.length).take header.payloadLength.toNat

theorem length_payloadOf {bytes : Bytes} {header : Header}
    (h : Header.decode bytes = .ok header) :
    (payloadOf header bytes).length = header.payloadLength.toNat := by
  obtain ⟨-, -, hlength⟩ := Header.decode_eq_ok h
  rw [payloadOf, List.length_take, List.length_drop, Header.length]
  omega

/-- What a payload is read as behind a header. -/
def readPayload (header : Header) (payload : Bytes) : Except Error Frame :=
  if header.messageType ≠ MessageType.eventBatch.code then
    .error (.invalidArgument (.notEventBatch header.messageType))
  else
    (Event.decodeAll payload).map (Frame.mk header)

/-- All that is read behind the header is the payload that it announces. -/
theorem decode_eq_bind (bytes : Bytes) :
    decode bytes =
      (Header.decode bytes).bind fun header => readPayload header (payloadOf header bytes) := by
  rw [decode]
  cases Header.decode bytes with
  | error error => rfl
  | ok header =>
    simp only [Except.bind, readPayload, payloadOf]
    split
    · rfl
    · cases Event.decodeAll ((bytes.drop Header.length).take header.payloadLength.toNat) <;> rfl

/-- Once the header is known to announce events, all depends on the payload. -/
theorem decode_of_header {bytes : Bytes} {header : Header}
    (h : Header.decode bytes = .ok header) (htype : header.messageType = 1) :
    decode bytes = (Event.decodeAll (payloadOf header bytes)).map (Frame.mk header) := by
  rw [decode_eq_bind, h]
  exact if_neg (not_not_intro htype)

/-- What can become of bytes: they are refused for their header, for its message type or for
their payload, or they are a frame. -/
inductive Outcome (bytes : Bytes) : Except Error Frame → Prop
  | header {error : Error} (h : Header.decode bytes = .error error) :
      Outcome bytes (.error error)
  | messageType {header : Header} (hheader : Header.decode bytes = .ok header)
      (h : header.messageType ≠ 1) :
      Outcome bytes (.error (.invalidArgument (.notEventBatch header.messageType)))
  | payload {header : Header} {error : Error} (hheader : Header.decode bytes = .ok header)
      (htype : header.messageType = 1)
      (h : Event.decodeAll (payloadOf header bytes) = .error error) : Outcome bytes (.error error)
  | accepted {header : Header} {events : List Event}
      (hheader : Header.decode bytes = .ok header) (htype : header.messageType = 1)
      (h : Event.decodeAll (payloadOf header bytes) = .ok events) :
      Outcome bytes (.ok { header, events })

theorem outcome_decode (bytes : Bytes) : Outcome bytes (decode bytes) := by
  rw [decode_eq_bind]
  cases hheader : Header.decode bytes with
  | error error => exact .header hheader
  | ok header =>
    change Outcome bytes (readPayload header (payloadOf header bytes))
    rw [readPayload]
    split
    · next htype => exact .messageType hheader htype
    · next htype =>
      have htype : header.messageType = 1 := not_not.mp htype
      cases hevents : Event.decodeAll (payloadOf header bytes) with
      | error error => exact .payload hheader htype hevents
      | ok events => exact .accepted hheader htype hevents

theorem header_of_decode {bytes : Bytes} {frame : Frame} (h : decode bytes = .ok frame) :
    Header.decode bytes = .ok frame.header ∧ frame.header.messageType = 1 := by
  have houtcome := outcome_decode bytes
  rw [h] at houtcome
  cases houtcome with
  | accepted hheader htype _ => exact ⟨hheader, htype⟩

theorem payloadSize_eq {records : List Bytes} {events : List Event}
    (hrecords : ∀ record ∈ records, IsRecord record)
    (h : List.Forall₂ Describes records events) :
    payloadSize events = records.flatten.length := by
  induction h with
  | nil => rfl
  | cons hevent hevents ih =>
    rw [payloadSize, List.flatten_cons, List.length_append,
      hevent.encodedLength_eq (hrecords _ List.mem_cons_self),
      ih fun record hmem => hrecords record (List.mem_cons_of_mem _ hmem)]

/-! ## Frames and payloads that split -/

section Payload

variable {bytes rest : Bytes} {header : Header} {records : List Bytes} {error : Error}

theorem decode_of_splits (hheader : Header.decode bytes = .ok header)
    (htype : header.messageType = 1) (h : Splits (payloadOf header bytes) records) :
    ∃ events, decode bytes = .ok { header, events } ∧ List.Forall₂ Describes records events := by
  obtain ⟨events, hevents, hdescribes⟩ := h.decodeAll_eq
  refine ⟨events, ?_, hdescribes⟩
  rw [decode_of_header hheader htype, hevents]
  rfl

theorem decode_of_stopsAt (hheader : Header.decode bytes = .ok header)
    (htype : header.messageType = 1)
    (h : StopsAt (payloadOf header bytes) records rest error) : decode bytes = .error error := by
  rw [decode_of_header hheader htype, h.decodeAll_eq]
  rfl

theorem exists_splits_of_decode {frame : Frame} (h : decode bytes = .ok frame) :
    ∃ records, Splits (payloadOf frame.header bytes) records := by
  obtain ⟨hheader, htype⟩ := header_of_decode h
  rcases splits_or_stopsAt (payloadOf frame.header bytes) with
    hsplits | ⟨records, rest, error, hstops⟩
  · exact hsplits
  · rw [decode_of_stopsAt hheader htype hstops] at h
    cases h

end Payload

/-- A frame is read exactly if its header is, announces events, and the payload
splits.  The events are then the records, in their order, and writing header and
events back gives the bytes that were read, but for the reserved bytes.  A payload
that does not split stops somewhere, and the error is the one found there. -/
theorem decode_reads_split_payload (bytes : Bytes) :
    ((∃ frame, decode bytes = .ok frame) ↔
      ∃ header records, Header.decode bytes = .ok header ∧ header.messageType = 1 ∧
        Splits (payloadOf header bytes) records) ∧
      (∀ frame, decode bytes = .ok frame →
        let payloadLength := frame.header.payloadLength.toNat
        Header.decode bytes = .ok frame.header ∧
          payloadSize frame.events = payloadLength ∧
          ∃ records, Splits (payloadOf frame.header bytes) records ∧
            (∀ others, Splits (payloadOf frame.header bytes) others → others = records) ∧
            List.Forall₂ Describes records frame.events ∧
            bytes.take (32 + payloadLength) = bytes.take 32 ++ records.flatten ∧
            frame.header.encode = .ok (bytes.take 32) ∧
            frame.events.map Event.encode = records.map (·.set 5 0)) ∧
      (∀ header, Header.decode bytes = .ok header → header.messageType = 1 →
        (¬ ∃ records, Splits (payloadOf header bytes) records) →
        (∃ records rest error, StopsAt (payloadOf header bytes) records rest error) ∧
          ∀ records rest error, StopsAt (payloadOf header bytes) records rest error →
            decode bytes = .error error) := by
  refine ⟨⟨?_, ?_⟩, ?_, ?_⟩
  · rintro ⟨frame, h⟩
    obtain ⟨hheader, htype⟩ := header_of_decode h
    obtain ⟨records, hrecords⟩ := exists_splits_of_decode h
    exact ⟨frame.header, records, hheader, htype, hrecords⟩
  · rintro ⟨header, records, hheader, htype, hrecords⟩
    obtain ⟨events, hdecode, -⟩ := decode_of_splits hheader htype hrecords
    exact ⟨_, hdecode⟩
  · intro frame h payloadLength
    obtain ⟨hheader, htype⟩ := header_of_decode h
    obtain ⟨records, hrecords⟩ := exists_splits_of_decode h
    obtain ⟨events, hdecode, hdescribes⟩ := decode_of_splits hheader htype hrecords
    rw [h] at hdecode
    have hevents : frame.events = events := congrArg Frame.events (Except.ok.inj hdecode)
    rw [hevents]
    refine ⟨hheader, ?_, records, hrecords, fun others hothers => hothers.unique hrecords,
      hdescribes, ?_, Header.encode_of_decode hheader,
      map_encode_eq hrecords.isRecord hdescribes⟩
    · rw [payloadSize_eq hrecords.isRecord hdescribes, hrecords.flatten_eq,
        length_payloadOf hheader]
    · rw [List.take_add, hrecords.flatten_eq]
      rfl
  · intro header hheader htype hnone
    refine ⟨?_, fun records rest error hstops => decode_of_stopsAt hheader htype hstops⟩
    rcases splits_or_stopsAt (payloadOf header bytes) with hsplits | hstops
    · exact absurd hsplits hnone
    · exact hstops

/-- One record with a reserved byte of 7, behind a header, with a byte too many. -/
theorem reserved_byte_lost :
    let front : Bytes :=
      [0x54, 0x45, 0x4C, 0x31, 1, 32, 0, 1, 0, 0, 0, 5] ++ List.replicate 11 0 ++ [17] ++
        List.replicate 8 0
    let record (reserved : UInt8) : Bytes :=
      [0, 0, 0, 1, 2, reserved, 0, 1] ++ List.replicate 8 0 ++ [42]
    ∃ frame, decode (front ++ record 7 ++ [9]) = .ok frame ∧ frame.header.encode = .ok front ∧
      frame.events.map Event.encode = [record 0] := by
  intro front record
  obtain ⟨hread, hwritten, -⟩ := decode_reads_split_payload (front ++ record 7 ++ [9])
  have hsplits : Splits (record 7) [record 7] :=
    { flatten_eq := List.flatten_singleton
      isRecord := by
        intro bytes hmem
        rw [List.mem_singleton.mp hmem]
        constructor <;> decide }
  obtain ⟨frame, hframe⟩ := hread.mpr ⟨_, [record 7], rfl, rfl, hsplits⟩
  obtain ⟨hheader, -, records, hrecords, -, -, -, hencode, hevents⟩ := hwritten frame hframe
  have hpayload : payloadOf frame.header (front ++ record 7 ++ [9]) = record 7 := by
    rw [(Header.decode_eq_ok hheader).1]
    rfl
  rw [hpayload] at hrecords
  rw [hrecords.unique hsplits] at hevents
  exact ⟨frame, hframe, hencode, hevents⟩

end Frame

end Telemetry
