import Telemetry.Proofs.Wire.Extent

/-!
# Reading within the bytes

A reader that looks at each of its accesses can fail in two ways that are no matter of the
format: it can reach for bytes that are not there, and it can go on for too long.  Frames
are read once more in this way, a byte at a time, with as many rounds as records of the
least length fit into the payload.  Neither failure ever comes up, and in all else the two
readers agree.
-/

namespace Telemetry

/-! ## A reader that checks its accesses -/

namespace Checked

/-- How a reader fails that checks its accesses. -/
inductive Failure
  /-- It has reached for bytes that are not there. -/
  | outside
  /-- It has used up its rounds with bytes still left. -/
  | unfinished
  | refused (error : Error)

def byte (bytes : Bytes) (index : Nat) : Except Failure UInt8 :=
  match bytes[index]? with
  | some byte => .ok byte
  | none => .error .outside

/-- The bytes of a field, one after the other. -/
def field (bytes : Bytes) (offset : Nat) : Nat → Except Failure Bytes
  | 0 => .ok []
  | width + 1 => do
    let front ← field bytes offset width
    let last ← byte bytes (offset + width)
    return front ++ [last]

def number (bytes : Bytes) (offset width : Nat) : Except Failure Nat := do
  return bigEndianValue (← field bytes offset width)

/-- The bytes from `first` on, up to the one in front of `last`. -/
def slice (bytes : Bytes) (first last : Nat) : Except Failure Bytes :=
  if first ≤ last ∧ last ≤ bytes.length then
    .ok ((bytes.drop first).take (last - first))
  else
    .error .outside

def readHeader (bytes : Bytes) : Except Failure Header :=
  if bytes.length < Header.length then
    .error (.refused (.truncated Header.length bytes.length))
  else do
    let header : Header := {
      magic := .ofNat (← number bytes 0 4)
      version := ← byte bytes 4
      headerLength := ← byte bytes 5
      messageType := .ofNat (← number bytes 6 2)
      sequence := .ofNat (← number bytes 8 4)
      timestamp := .ofNat (← number bytes 12 8)
      payloadLength := .ofNat (← number bytes 20 4)
      checksum := .ofNat (← number bytes 24 4)
      reserved := .ofNat (← number bytes 28 4) }
    header.validate.mapError .refused
    if bytes.length - Header.length < header.payloadLength.toNat then
      .error (.refused
        (.payloadOutOfRange header.payloadLength.toNat (bytes.length - Header.length)))
    else
      return header

def readEvent (bytes : Bytes) : Except Failure (Event × Nat) :=
  if bytes.length < Event.fixedLength then
    .error (.refused (.truncated Event.fixedLength bytes.length))
  else do
    let id ← number bytes 0 4
    let code ← byte bytes 4
    match Level.ofCode? code with
    | none => .error (.refused (.invalidArgument (.unknownLevel code)))
    | some level =>
      let size ← number bytes 6 2
      let timestamp ← number bytes 8 8
      if maxPayload < size then
        .error (.refused (.payloadOutOfRange size maxPayload))
      else if bytes.length < Event.fixedLength + size then
        .error (.refused (.truncated (Event.fixedLength + size) bytes.length))
      else
        let payload ← slice bytes Event.fixedLength (Event.fixedLength + size)
        let event ← (Event.make (.ofNat id) level payload (.ofNat timestamp)).mapError .refused
        return (event, Event.fixedLength + size)

/-- Reads records until nothing is left, `rounds` of them at most. -/
def readEvents (rounds : Nat) (payload : Bytes) : Except Failure (List Event) :=
  if payload = [] then
    .ok []
  else do
    let (event, used) ← readEvent payload
    let rest ← slice payload used payload.length
    match rounds with
    | 0 => .error .unfinished
    | rounds + 1 => return event :: (← readEvents rounds rest)

/-- A frame, with a round for each 16 bytes of its payload. -/
def readFrame (bytes : Bytes) : Except Failure Frame := do
  let header ← readHeader bytes
  if header.messageType ≠ MessageType.eventBatch.code then
    .error (.refused (.invalidArgument (.notEventBatch header.messageType)))
  else
    let payload ← slice bytes Header.length (Header.length + header.payloadLength.toNat)
    let events ← readEvents (header.payloadLength.toNat / 16) payload
    return { header, events }

/-! ## No access reaches outside -/

variable {bytes : Bytes} {index offset width first last : Nat}

theorem ok_bind {α β : Type} (value : α) (next : α → Except Failure β) :
    (Except.ok value >>= next) = next value := rfl

theorem byte_eq (h : index < bytes.length) :
    byte bytes index = .ok (.ofNat (numberAt bytes index 1)) := by
  have hbyte := List.getElem?_eq_getElem h
  rw [byte, hbyte, numberAt_byte hbyte, UInt8.ofNat_toNat]

theorem field_eq (h : offset + width ≤ bytes.length) :
    field bytes offset width = .ok ((bytes.drop offset).take width) := by
  induction width with
  | zero => rfl
  | succ width ih =>
    have hlast : offset + width < bytes.length := by omega
    have hbyte : byte bytes (offset + width) = .ok bytes[offset + width] := by
      rw [byte, List.getElem?_eq_getElem hlast]
    have hone : [bytes[offset + width]] = (bytes.drop (offset + width)).take 1 := by
      rw [List.drop_eq_getElem_cons hlast, List.take_succ_cons, List.take_zero]
    rw [field, ih (by omega), ok_bind, hbyte, ok_bind, hone, field_append_field]
    rfl

theorem number_eq (h : offset + width ≤ bytes.length) :
    number bytes offset width = .ok (numberAt bytes offset width) := by
  rw [number, field_eq h, ok_bind, numberAt]
  rfl

theorem slice_eq (hfirst : first ≤ last) (hlast : last ≤ bytes.length) :
    slice bytes first last = .ok ((bytes.drop first).take (last - first)) :=
  if_pos ⟨hfirst, hlast⟩

theorem readHeader_eq (bytes : Bytes) :
    readHeader bytes = (Header.decode bytes).mapError .refused := by
  by_cases hshort : bytes.length < Header.length
  · rw [readHeader, Header.decode, if_pos hshort, if_pos hshort]
    rfl
  · have hlong : 32 ≤ bytes.length := not_lt.mp hshort
    rw [readHeader, Header.decode, if_neg hshort, if_neg hshort]
    simp (disch := omega) only [number_eq, byte_eq, ok_bind]
    rw [← Header.ofBytes]
    cases (Header.ofBytes bytes).validate with
    | error error => rfl
    | ok _ =>
      simp only [apply_ite (Except.mapError _)]
      rfl

theorem readEvent_eq (bytes : Bytes) :
    readEvent bytes = (Event.decode bytes).mapError .refused := by
  by_cases hshort : bytes.length < Event.fixedLength
  · rw [readEvent, Event.decode, if_pos hshort, if_pos hshort]
    rfl
  · have hlong : 16 ≤ bytes.length := not_lt.mp hshort
    rw [readEvent, Event.decode, if_neg hshort, if_neg hshort]
    simp (disch := omega) only [number_eq, byte_eq, ok_bind]
    cases Level.ofCode? (.ofNat (numberAt bytes 4 1)) with
    | none => rfl
    | some level =>
      by_cases hsize : maxPayload < numberAt bytes 6 2
      · simp only [if_pos hsize]
        rfl
      by_cases hmissing : bytes.length < Event.fixedLength + numberAt bytes 6 2
      · simp only [if_neg hsize, if_pos hmissing]
        rfl
      · have hpayload := slice_eq (Nat.le_add_right _ _) (not_lt.mp hmissing)
        simp only [if_neg hsize, if_neg hmissing, hpayload, ok_bind, Nat.add_sub_cancel_left]
        cases Event.make (.ofNat (numberAt bytes 0 4)) level
          ((bytes.drop Event.fixedLength).take (numberAt bytes 6 2))
          (.ofNat (numberAt bytes 8 8)) <;> rfl

section Loop

variable {payload : Bytes} {rounds : Nat}

theorem readEvents_nil (rounds : Nat) : readEvents rounds [] = .ok [] := by
  rw [readEvents, if_pos rfl]

theorem readEvents_of_error {error : Error} (hne : payload ≠ [])
    (h : Event.decode payload = .error error) :
    readEvents rounds payload = .error (.refused error) := by
  rw [readEvents, if_neg hne, readEvent_eq, h]
  rfl

/-- A round leaves the record behind, which is there as far as it is left behind. -/
theorem readEvents_of_decode {event : Event} {used : Nat}
    (h : Event.decode payload = .ok (event, used)) :
    readEvents (rounds + 1) payload =
      (readEvents rounds (payload.drop used)).map (event :: ·) := by
  obtain ⟨hleast, hmost⟩ := Event.used_of_decode h
  rw [Event.fixedLength] at hleast
  have hne : payload ≠ [] := by
    rintro rfl
    rw [List.length_nil] at hmost
    omega
  have hrest : slice payload used payload.length = .ok (payload.drop used) := by
    rw [slice_eq hmost le_rfl, ← List.length_drop, List.take_length]
  have hread : readEvent payload = .ok (event, used) := by
    rw [readEvent_eq, h]
    rfl
  rw [readEvents, if_neg hne, hread, ok_bind]
  simp only [hrest, ok_bind]
  cases readEvents rounds (payload.drop used) <;> rfl

/-- A record takes 16 bytes at least, so a round that is needed is one that is left. -/
theorem readEvents_step {event : Event} {used : Nat}
    (h : Event.decode payload = .ok (event, used)) (hrounds : payload.length / 16 ≤ rounds)
    (ih : ∀ {rounds : Nat}, (payload.drop used).length / 16 ≤ rounds →
      readEvents rounds (payload.drop used) =
        (Event.decodeAll (payload.drop used)).mapError .refused) :
    readEvents rounds payload = (Event.decodeAll payload).mapError .refused := by
  obtain ⟨hleast, hmost⟩ := Event.used_of_decode h
  rw [Event.fixedLength] at hleast
  cases rounds with
  | zero => omega
  | succ rounds =>
    have hrest : (payload.drop used).length / 16 ≤ rounds := by
      rw [List.length_drop]
      omega
    rw [readEvents_of_decode h, ih hrest, Event.decodeAll_of_decode h]
    cases Event.decodeAll (payload.drop used) <;> rfl

theorem readEvents_eq (h : payload.length / 16 ≤ rounds) :
    readEvents rounds payload = (Event.decodeAll payload).mapError .refused := by
  induction payload using Event.decodeAll.induct generalizing rounds with
  | case1 =>
    rw [readEvents_nil, Event.decodeAll_nil]
    rfl
  | case2 payload hne error hdecode =>
    rw [readEvents_of_error hne hdecode, Event.decodeAll_of_error hne hdecode]
    rfl
  | case3 payload hne event used hdecode error hrest ih => exact readEvents_step hdecode h ih
  | case4 payload hne event used hdecode events hrest ih => exact readEvents_step hdecode h ih

end Loop

theorem readFrame_eq (bytes : Bytes) :
    readFrame bytes = (Frame.decode bytes).mapError .refused := by
  rw [readFrame, readHeader_eq, Frame.decode_eq_bind]
  cases hheader : Header.decode bytes with
  | error error => rfl
  | ok header =>
    obtain ⟨-, -, hlength⟩ := Header.decode_eq_ok hheader
    have hinside : Header.length + header.payloadLength.toNat ≤ bytes.length := hlength
    have hpayload : slice bytes Header.length (Header.length + header.payloadLength.toNat) =
        .ok (Frame.payloadOf header bytes) := by
      rw [slice_eq (Nat.le_add_right _ _) hinside, Nat.add_sub_cancel_left]
      rfl
    have hevents : readEvents (header.payloadLength.toNat / 16) (Frame.payloadOf header bytes) =
        (Event.decodeAll (Frame.payloadOf header bytes)).mapError .refused := by
      apply readEvents_eq
      rw [Frame.length_payloadOf hheader]
    simp only [Except.mapError, Except.bind, ok_bind, Frame.readPayload]
    by_cases htype : header.messageType ≠ MessageType.eventBatch.code
    · rw [if_pos htype, if_pos htype]
    · rw [if_neg htype, if_neg htype, hpayload, ok_bind, hevents]
      cases Event.decodeAll (Frame.payloadOf header bytes) <;> rfl

end Checked

/-! ## The loop over the records -/

namespace Event

/-- One round of the loop: a record is read, and what stands behind it is left. -/
def Round (payload rest : Bytes) : Prop :=
  ∃ event used, decode payload = .ok (event, used) ∧ payload.drop used = rest

/-- So many rounds lead from the one payload to the other. -/
inductive Rounds : Nat → Bytes → Bytes → Prop
  | none (payload : Bytes) : Rounds 0 payload payload
  | next {count : Nat} {payload rest last : Bytes} (hround : Round payload rest)
      (h : Rounds count rest last) : Rounds (count + 1) payload last

variable {payload rest : Bytes}

/-- A round takes away a fixed part and the payload of one event. -/
theorem Round.length_bounds (h : Round payload rest) :
    rest.length + 16 ≤ payload.length ∧ payload.length ≤ rest.length + 144 := by
  obtain ⟨event, used, hdecode, rfl⟩ := h
  rw [List.length_drop]
  cases decode_eq_iff_verdict.mp hdecode with
  | accepted _ _ _ hsize hlength _ => omega

theorem Rounds.length_bounds {count : Nat} (h : Rounds count payload rest) :
    16 * count + rest.length ≤ payload.length ∧
      payload.length ≤ 144 * count + rest.length := by
  induction h with
  | none payload => omega
  | next hround _ ih =>
    obtain ⟨hleast, hmost⟩ := hround.length_bounds
    omega

end Event

/-! ## Kinds of errors -/

/-- The kinds of the errors that frames are refused with. -/
def refusalKinds : List ErrorKind :=
  [.invalidArgument, .truncated, .magicMismatch, .versionMismatch, .headerLengthMismatch,
    .payloadOutOfRange]

theorem Error.isRetryable_of_mem {error : Error} (h : error.kind ∈ refusalKinds) :
    error.isRetryable = false := by
  rw [isRetryable]
  generalize error.kind = kind at h
  simp only [refusalKinds, List.mem_cons, List.not_mem_nil, or_false] at h
  rcases h with rfl | rfl | rfl | rfl | rfl | rfl <;> rfl

section Kinds

variable {bytes payload : Bytes} {error : Error}

theorem Header.kind_mem_of_decode (h : decode bytes = .error error) :
    error.kind ∈ refusalKinds := by
  cases decode_eq_iff_verdict.mp h <;> simp [refusalKinds, Error.kind]

theorem Event.kind_mem_of_decode (h : decode bytes = .error error) :
    error.kind ∈ refusalKinds := by
  cases decode_eq_iff_verdict.mp h <;> simp [refusalKinds, Error.kind]

/-- The error of a payload is that of one of its records. -/
theorem Event.kind_mem_of_decodeAll (h : decodeAll payload = .error error) :
    error.kind ∈ refusalKinds := by
  rcases splits_or_stopsAt payload with ⟨records, hsplits⟩ | ⟨records, rest, found, hstops⟩
  · obtain ⟨events, hevents, -⟩ := hsplits.decodeAll_eq
    rw [h] at hevents
    cases hevents
  · rw [hstops.decodeAll_eq] at h
    cases h
    exact kind_mem_of_decode hstops.decode_eq

theorem Frame.kind_mem_of_decode (h : decode bytes = .error error) :
    error.kind ∈ refusalKinds := by
  have houtcome := outcome_decode bytes
  rw [h] at houtcome
  cases houtcome with
  | header hheader => exact Header.kind_mem_of_decode hheader
  | messageType _ _ => simp [refusalKinds, Error.kind]
  | payload _ _ hpayload => exact Event.kind_mem_of_decodeAll hpayload

end Kinds

/-- Whatever the bytes are, a reader that checks its accesses finds none of them outside,
needs no more rounds than a sixteenth of the announced bytes, and gives the answer of the
plain reader.  Each round of the loop takes away between 16 and 144 bytes.  A refusal is of
one of six kinds, which are not worth another try. -/
theorem Frame.decode_stays_inside (bytes : Bytes) :
    Checked.readFrame bytes = (decode bytes).mapError .refused ∧
      (∀ header, Header.decode bytes = .ok header →
        ∀ count rest, Event.Rounds count (payloadOf header bytes) rest →
          count ≤ header.payloadLength.toNat / 16 ∧
            ∀ next, Event.Round rest next →
              next.length + 16 ≤ rest.length ∧ rest.length ≤ next.length + 144) ∧
      (∀ error, decode bytes = .error error → error.kind ∈ refusalKinds) ∧
      ∀ error : Error, error.kind ∈ refusalKinds → error.isRetryable = false := by
  refine ⟨Checked.readFrame_eq bytes, ?_, fun _ => kind_mem_of_decode,
    fun _ => Error.isRetryable_of_mem⟩
  intro header hheader count rest hrounds
  obtain ⟨hleast, -⟩ := hrounds.length_bounds
  rw [length_payloadOf hheader] at hleast
  exact ⟨by omega, fun _ hround => hround.length_bounds⟩

/-- A payload of 17 bytes, of which a record takes 16; and a slice that does reach outside. -/
theorem Frame.byte_behind_last_record :
    let bytes : Bytes :=
      [0x54, 0x45, 0x4C, 0x31, 1, 32, 0, 1] ++ List.replicate 15 0 ++ [17] ++ List.replicate 25 0
    (∃ header, Header.decode bytes = .ok header ∧
      Event.Rounds 1 (payloadOf header bytes) [0] ∧ 1 ≤ header.payloadLength.toNat / 16) ∧
      (∃ error, decode bytes = .error error ∧
        Checked.readFrame bytes = .error (.refused error) ∧ error.kind ∈ refusalKinds ∧
        error.isRetryable = false) ∧
      Checked.slice [1, 2] 1 3 = .error .outside := by
  intro bytes
  obtain ⟨hchecked, hrounds, hkind, hretry⟩ := decode_stays_inside bytes
  have hheader : Header.decode bytes = .ok (Header.ofBytes bytes) := rfl
  have hrecord : Event.decode (Event.blank.encode ++ [0]) = .ok (.blank, 16) :=
    Event.decode_encode_append .blank [0]
  have hround : Event.Rounds 1 (payloadOf (Header.ofBytes bytes) bytes) [0] :=
    .next ⟨_, _, hrecord, rfl⟩ (.none [0])
  have hstops : StopsAt (payloadOf (Header.ofBytes bytes) bytes) [Event.blank.encode] [0]
      (.truncated 16 1) :=
    ⟨rfl, by simp [Event.isRecord_encode], by simp, rfl⟩
  have hdecode := decode_of_stopsAt hheader rfl hstops
  refine ⟨⟨_, hheader, hround, (hrounds _ hheader _ _ hround).1⟩, ⟨_, hdecode, ?_,
    hkind _ hdecode, hretry _ (hkind _ hdecode)⟩, rfl⟩
  rw [hchecked, hdecode]
  rfl

end Telemetry
