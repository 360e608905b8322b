import Telemetry.Proofs.Wire.Headers
import Telemetry.Proofs.Wire.Verdicts

/-!
# How far a frame reaches

A frame is its header and as many bytes as the header announces.  Bytes behind them have no
part in what is read, be it events or an error.  As long as one of them is missing, that is
the error, also where the payload that is there splits into whole records.  In the header,
the checksum and the reserved word are carried along and decide nothing.
-/

namespace Telemetry

namespace Header

variable {bytes other : Bytes} {header : Header}

/-- The header with other words in the two fields that are only carried. -/
def carrying (checksum reserved : UInt32) (header : Header) : Header :=
  { header with checksum, reserved }

@[simp]
theorem validate_carrying (checksum reserved : UInt32) :
    (header.carrying checksum reserved).validate = header.validate := rfl

@[simp]
theorem payloadLength_carrying (checksum reserved : UInt32) :
    (header.carrying checksum reserved).payloadLength = header.payloadLength := rfl

/-- A header is found again in bytes that agree as far as the frame reaches. -/
theorem decode_of_take_eq (h : decode bytes = .ok header)
    (htake : other.take (32 + header.payloadLength.toNat) =
      bytes.take (32 + header.payloadLength.toNat)) : decode other = .ok header := by
  obtain ⟨hfields, hvalid, hlength⟩ := decode_eq_ok h
  have hinside : 32 + header.payloadLength.toNat ≤ other.length := by
    have hlengths := congrArg List.length htake
    rw [List.length_take, List.length_take] at hlengths
    omega
  have hfront : other.take 32 = bytes.take 32 := by
    have hshorter := congrArg (List.take 32) htake
    rwa [List.take_take, List.take_take, Nat.min_eq_left (Nat.le_add_right _ _)] at hshorter
  have hread : ofBytes other = header := by
    rw [← ofBytes_take, hfront, ofBytes_take, hfields]
  have hannounced : numberAt other 20 4 = header.payloadLength.toNat := by
    rw [← hread, ofBytes, toNat_uint32_numberAt]
  rw [decode_of_length (by omega), hread, hvalid, hannounced]
  exact if_neg (by omega)

/-- The bytes with other words written over those that are only carried, as far as there are
bytes to write over. -/
def overwriteCarried (checksum reserved : UInt32) (bytes : Bytes) : Bytes :=
  (overwrite bytes 24 (bigEndian 4 checksum.toNat ++ bigEndian 4 reserved.toNat)).take
    bytes.length

section Carried

variable (checksum reserved : UInt32)

@[simp]
theorem length_overwriteCarried :
    (overwriteCarried checksum reserved bytes).length = bytes.length := by
  simp [overwriteCarried, overwrite]
  omega

theorem overwriteCarried_eq (h : 32 ≤ bytes.length) :
    overwriteCarried checksum reserved bytes =
      bytes.take 24 ++
        (bigEndian 4 checksum.toNat ++ (bigEndian 4 reserved.toNat ++ bytes.drop 32)) := by
  rw [overwriteCarried, overwrite, List.take_of_length_le]
  · simp [List.append_assoc]
  · simp
    omega

theorem drop_overwriteCarried (h : 32 ≤ bytes.length) :
    (overwriteCarried checksum reserved bytes).drop 32 = bytes.drop 32 := by
  rw [overwriteCarried_eq _ _ h, ← List.append_assoc, ← List.append_assoc,
    List.drop_left' (by simp; omega)]

/-- All other fields are found as before. -/
theorem ofBytes_overwriteCarried (h : 32 ≤ bytes.length) :
    ofBytes (overwriteCarried checksum reserved bytes) =
      (ofBytes bytes).carrying checksum reserved := by
  have hfront : (bytes.take 24).length = 24 := by
    rw [List.length_take]
    omega
  have hfield {offset width : Nat} (hinside : offset + width ≤ 24) :
      numberAt (overwriteCarried checksum reserved bytes) offset width =
        numberAt bytes offset width := by
    rw [overwriteCarried_eq _ _ h, numberAt_append _ (by omega), numberAt_take hinside]
  have hchecksum : numberAt (overwriteCarried checksum reserved bytes) 24 4 = checksum.toNat := by
    rw [overwriteCarried_eq _ _ h, numberAt_append_right _ _ hfront.le, hfront, numberAt_uint32]
  have hreserved : numberAt (overwriteCarried checksum reserved bytes) 28 4 = reserved.toNat := by
    rw [overwriteCarried_eq _ _ h, numberAt_append_right _ _ (by omega), hfront,
      numberAt_append_right _ _ (by simp), length_bigEndian, numberAt_uint32]
  simp only [ofBytes, carrying, hfield (by decide : 0 + 4 ≤ 24), hfield (by decide : 4 + 1 ≤ 24),
    hfield (by decide : 5 + 1 ≤ 24), hfield (by decide : 6 + 2 ≤ 24),
    hfield (by decide : 8 + 4 ≤ 24), hfield (by decide : 12 + 8 ≤ 24),
    hfield (by decide : 20 + 4 ≤ 24), hchecksum, hreserved, UInt32.ofNat_toNat]

/-- Other words in the carried fields make the same header but for these fields, or the
same error. -/
theorem decode_overwriteCarried (bytes : Bytes) :
    decode (overwriteCarried checksum reserved bytes) =
      (decode bytes).map (carrying checksum reserved) := by
  by_cases hshort : bytes.length < length
  · simp only [decode, length_overwriteCarried, if_pos hshort]
    rfl
  · simp only [decode, length_overwriteCarried, if_neg hshort,
      ofBytes_overwriteCarried _ _ (not_lt.mp hshort), validate_carrying, payloadLength_carrying]
    cases (ofBytes bytes).validate with
    | error error => rfl
    | ok _ =>
      simp only [apply_ite (Except.map _)]
      rfl

end Carried

end Header

namespace Frame

/-! ## Written frames -/

section Written

variable {sequence : UInt32} {timestamp : UInt64} {events : List Event} {bytes : Bytes}

theorem le_of_encode (h : encode sequence timestamp events = .ok bytes) :
    payloadSize events ≤ maxPayloadSize := by
  by_contra hlarge
  rw [encode, if_neg hlarge] at h
  cases h

theorem eq_of_encode (h : encode sequence timestamp events = .ok bytes) :
    bytes = (headerFor sequence timestamp events).toBytes ++ events.flatMap Event.encode := by
  rw [encode_of_le sequence timestamp (le_of_encode h)] at h
  exact (Except.ok.inj h).symm

/-- A written frame is read as it was written. -/
theorem decode_of_encode (h : encode sequence timestamp events = .ok bytes) :
    decode bytes = .ok { header := headerFor sequence timestamp events, events } := by
  have hdecode := decode_append sequence timestamp (le_of_encode h) []
  rwa [List.append_nil, ← eq_of_encode h] at hdecode

theorem length_of_encode (h : encode sequence timestamp events = .ok bytes) :
    bytes.length = 32 + payloadSize events := by
  rw [eq_of_encode h, List.length_append, Header.length_toBytes, length_flatMap_encode]

/-- Behind the header of a written frame are its events. -/
theorem drop_of_encode (h : encode sequence timestamp events = .ok bytes) :
    bytes.drop 32 = events.flatMap Event.encode := by
  rw [eq_of_encode h, List.drop_left' (Header.length_toBytes _)]

end Written

/-! ## Bytes behind the frame -/

theorem payloadOf_eq_drop_take (header : Header) (bytes : Bytes) :
    payloadOf header bytes = (bytes.take (32 + header.payloadLength.toNat)).drop 32 := by
  rw [payloadOf, Header.length, List.drop_take, Nat.add_sub_cancel_left]

section Extent

variable {bytes other : Bytes} {header : Header}

/-- Bytes that agree as far as the frame reaches are read the same, whatever comes of it. -/
theorem decode_of_take_eq (h : Header.decode bytes = .ok header)
    (htake : other.take (32 + header.payloadLength.toNat) =
      bytes.take (32 + header.payloadLength.toNat)) : decode other = decode bytes := by
  have hpayload : payloadOf header other = payloadOf header bytes := by
    rw [payloadOf_eq_drop_take, htake, payloadOf_eq_drop_take]
  rw [decode_eq_bind, decode_eq_bind, h, Header.decode_of_take_eq h htake]
  simp only [Except.bind, hpayload]

/-- The frame with other words in the two header fields that are only carried. -/
def carrying (checksum reserved : UInt32) (frame : Frame) : Frame :=
  { frame with header := frame.header.carrying checksum reserved }

theorem readPayload_carrying (checksum reserved : UInt32) (payload : Bytes) :
    readPayload (header.carrying checksum reserved) payload =
      (readPayload header payload).map (carrying checksum reserved) := by
  by_cases htype : header.messageType ≠ MessageType.eventBatch.code
  · rw [readPayload, readPayload, if_pos htype]
    exact if_pos htype
  · rw [readPayload, readPayload, if_neg htype]
    refine (if_neg htype).trans ?_
    cases Event.decodeAll payload <;> rfl

theorem payloadOf_overwriteCarried (checksum reserved : UInt32) (h : 32 ≤ bytes.length) :
    payloadOf (header.carrying checksum reserved)
      (Header.overwriteCarried checksum reserved bytes) = payloadOf header bytes := by
  rw [payloadOf, payloadOf, Header.length, Header.drop_overwriteCarried _ _ h,
    Header.payloadLength_carrying]

/-- Other words in the carried fields make the same frame but for these fields, or the
same error. -/
theorem decode_overwriteCarried (checksum reserved : UInt32) (bytes : Bytes) :
    decode (Header.overwriteCarried checksum reserved bytes) =
      (decode bytes).map (carrying checksum reserved) := by
  rw [decode_eq_bind, decode_eq_bind, Header.decode_overwriteCarried]
  cases hheader : Header.decode bytes with
  | error error => rfl
  | ok header =>
    obtain ⟨-, -, hlength⟩ := Header.decode_eq_ok hheader
    simp only [Except.map, Except.bind]
    rw [payloadOf_overwriteCarried _ _ (by omega), readPayload_carrying]
    rfl

end Extent

/-- Once a header is read, only the payload that it announces counts: bytes behind it
change nothing, neither events nor an error, and could as well be cut off.  The checksum
and the reserved word come out as they are and change nothing else. -/
theorem decode_confined_to_frame (bytes : Bytes) :
    (∀ header, Header.decode bytes = .ok header →
      (∀ rest, decode (bytes ++ rest) = decode bytes) ∧
        decode (bytes.take (32 + header.payloadLength.toNat)) = decode bytes) ∧
      ∀ checksum reserved,
        decode (Header.overwriteCarried checksum reserved bytes) =
          (decode bytes).map (carrying checksum reserved) := by
  refine ⟨fun header h => ⟨fun rest => ?_, ?_⟩,
    fun checksum reserved => decode_overwriteCarried checksum reserved bytes⟩
  · obtain ⟨-, -, hlength⟩ := Header.decode_eq_ok h
    exact decode_of_take_eq h (List.take_append_of_le_length hlength)
  · exact decode_of_take_eq h (by rw [List.take_take, Nat.min_self])

/-- A record of 26 bytes of which 20 are in the payload, with the missing ones behind the
frame; and a frame with one event and bytes behind it that would make another. -/
theorem truncated_event_not_completed :
    let front : Bytes := [0x54, 0x45, 0x4C, 0x31, 1, 32, 0, 1] ++ List.replicate 15 0 ++ [20]
    let record : Bytes := [0, 0, 0, 1, 2, 0, 0, 10] ++ List.replicate 12 0
    let bytes := front ++ List.replicate 8 0 ++ record
    decode bytes = .error (.truncated 26 20) ∧
      decode (bytes ++ List.replicate 6 0) = .error (.truncated 26 20) ∧
      decode (front ++ List.replicate 8 0xFF ++ record) = .error (.truncated 26 20) ∧
      ∃ written frame, encode 5 0 [.blank] = .ok written ∧ decode written = .ok frame ∧
        decode (written ++ Event.blank.encode) = .ok frame ∧
        decode (Header.overwriteCarried 0xDEADBEEF 7 written) =
          .ok (frame.carrying 0xDEADBEEF 7) := by
  intro front record bytes
  obtain ⟨hbehind, hcarried⟩ := decode_confined_to_frame bytes
  have hheader : Header.decode bytes = .ok (Header.ofBytes bytes) := rfl
  have hfixed : Event.FixedPart record 2 10 := ⟨by decide, rfl, 0, 10, rfl, rfl, rfl⟩
  have hcut : Event.Verdict record (.error (.truncated 26 20)) :=
    .payload hfixed (by decide) (by decide) (by decide)
  have hstops : StopsAt (payloadOf (Header.ofBytes bytes) bytes) [] record (.truncated 26 20) :=
    ⟨rfl, by simp, by simp [record], hcut.decode_eq⟩
  have hdecode := decode_of_stopsAt hheader rfl hstops
  obtain ⟨written, hencode⟩ : ∃ written, encode 5 0 [.blank] = .ok written := ⟨_, rfl⟩
  obtain ⟨frame, hframe⟩ : ∃ frame, decode written = .ok frame :=
    ⟨_, decode_of_encode hencode⟩
  obtain ⟨hwritten, hrecarried⟩ := decode_confined_to_frame written
  refine ⟨hdecode, ?_, ?_, written, frame, hencode, hframe, ?_, ?_⟩
  · rw [(hbehind _ hheader).1, hdecode]
  · have hother := hcarried 0xFFFFFFFF 0xFFFFFFFF
    rwa [hdecode] at hother
  · rw [(hwritten _ (header_of_decode hframe).1).1, hframe]
  · rw [hrecarried, hframe]
    rfl

/-! ## Frames cut short -/

section Cut

variable {sequence : UInt32} {timestamp : UInt64} {events : List Event} {bytes : Bytes}

/-- Cut anywhere behind its header, a written frame is refused. -/
theorem decode_take_of_encode (h : encode sequence timestamp events = .ok bytes) {size : Nat}
    (hheader : 32 ≤ size) (hcut : size < bytes.length) :
    decode (bytes.take size) =
      .error (.payloadOutOfRange (bytes.length - 32) (size - 32)) := by
  have hannounced : (headerFor sequence timestamp events).payloadLength.toNat =
      bytes.length - 32 := by
    rw [toNat_payloadLength_headerFor sequence timestamp (le_of_encode h), length_of_encode h,
      Nat.add_sub_cancel_left]
  have hrest : ((events.flatMap Event.encode).take (size - 32)).length = size - 32 := by
    rw [List.length_take, ← drop_of_encode h, List.length_drop]
    omega
  have htake : bytes.take size =
      (headerFor sequence timestamp events).toBytes ++
        (events.flatMap Event.encode).take (size - 32) := by
    rw [eq_of_encode h, List.take_append, Header.length_toBytes, List.take_of_length_le]
    rw [Header.length_toBytes]
    exact hheader
  have hrefused : Header.decode (bytes.take size) =
      .error (.payloadOutOfRange (bytes.length - 32) (size - 32)) := by
    have hvalid : (headerFor sequence timestamp events).validate = .ok () :=
      Header.validate_make _ _ _ _
    have hshort : ((events.flatMap Event.encode).take (size - 32)).length <
        (headerFor sequence timestamp events).payloadLength.toNat := by
      rw [hrest, hannounced]
      omega
    rw [htake, Header.decode_of_cut hvalid hshort, hrest, hannounced]
  rw [decode, hrefused]

/-- Bytes that end within the header are refused for that, whatever they are. -/
theorem decode_of_length_lt (h : bytes.length < 32) :
    decode bytes = .error (.truncated 32 bytes.length) := by
  rw [decode, (Header.Verdict.truncated h).decode_eq]

theorem payloadSize_append (front back : List Event) :
    payloadSize (front ++ back) = payloadSize front + payloadSize back := by
  simp only [← length_flatMap_encode, List.flatMap_append, List.length_append]

theorem payloadSize_pos (h : events ≠ []) : 0 < payloadSize events := by
  cases events with
  | nil => exact absurd rfl h
  | cons event events =>
    rw [payloadSize, Event.encodedLength, Event.fixedLength]
    omega

/-- Cut between two events, a written frame still holds those in front of the cut. -/
theorem decodeAll_take_of_encode {front back : List Event}
    (h : encode sequence timestamp (front ++ back) = .ok bytes) :
    Event.decodeAll ((bytes.take (32 + payloadSize front)).drop 32) = .ok front := by
  rw [List.drop_take, Nat.add_sub_cancel_left, drop_of_encode h, List.flatMap_append,
    List.take_left' (length_flatMap_encode front), Event.decodeAll_flatMap_encode]

/-- Cut anywhere, a written frame is refused: within its header for the bytes that the
header lacks, and behind it for the payload that is not all there.  So it is where the cut
falls between two events, though those in front of it could be read. -/
theorem cut_frame_refused (h : encode sequence timestamp events = .ok bytes) :
    (∀ size < bytes.length,
      decode (bytes.take size) =
        .error (if size < 32 then .truncated 32 size
          else .payloadOutOfRange (bytes.length - 32) (size - 32))) ∧
      ∀ front back, events = front ++ back → back ≠ [] →
        let cut := bytes.take (32 + payloadSize front)
        Event.decodeAll (cut.drop 32) = .ok front ∧
          decode cut = .error (.payloadOutOfRange (payloadSize events) (payloadSize front)) := by
  constructor
  · intro size hcut
    split
    · next hheader =>
      have hlength : (bytes.take size).length = size := by
        rw [List.length_take]
        omega
      rw [decode_of_length_lt (by rwa [hlength]), hlength]
    · next hheader => exact decode_take_of_encode h (not_lt.mp hheader) hcut
  · rintro front back rfl hback
    have hmissing := payloadSize_pos hback
    have hlength := length_of_encode h
    have hcut : 32 + payloadSize front < bytes.length := by
      rw [hlength, payloadSize_append]
      omega
    refine ⟨decodeAll_take_of_encode h, ?_⟩
    rw [decode_take_of_encode h (Nat.le_add_right _ _) hcut, hlength, Nat.add_sub_cancel_left,
      Nat.add_sub_cancel_left]

/-- Two events in a frame of 64 bytes, cut in the header, right behind it and between the
events. -/
theorem cut_between_events :
    let event : Event := { Event.blank with id := 7, level := .warning }
    ∃ bytes, encode 1 0 [event, .blank] = .ok bytes ∧ bytes.length = 64 ∧
      decode (bytes.take 31) = .error (.truncated 32 31) ∧
      decode (bytes.take 32) = .error (.payloadOutOfRange 32 0) ∧
      Event.decodeAll ((bytes.take 48).drop 32) = .ok [event] ∧
      decode (bytes.take 48) = .error (.payloadOutOfRange 32 16) := by
  intro event
  obtain ⟨bytes, hencode⟩ : ∃ bytes, encode 1 0 [event, .blank] = .ok bytes := ⟨_, rfl⟩
  have hlength : bytes.length = 64 := length_of_encode hencode
  obtain ⟨hcut, hbetween⟩ := cut_frame_refused hencode
  have hheader := hcut 31 (by rw [hlength]; decide)
  have hpayload := hcut 32 (by rw [hlength]; decide)
  rw [hlength] at hpayload
  obtain ⟨hfront, hrefused⟩ := hbetween [event] [.blank] rfl (by simp)
  exact ⟨bytes, hencode, hlength, hheader, hpayload, hfront, hrefused⟩

end Cut

end Frame

end Telemetry
