import Telemetry.Event

/-!
# Event records on the wire

A record is sixteen fixed bytes followed by its payload:

| offset | width | field         |
|--------|-------|---------------|
| 0      | 4     | event id      |
| 4      | 1     | level         |
| 5      | 1     | reserved, 0   |
| 6      | 2     | payload size  |
| 8      | 8     | time stamp    |

The size stands in front of the payload, so a reader knows where a record ends
without looking past it.
-/

namespace Telemetry.Event

/-- Bytes in front of the payload. -/
def fixedLength : Nat := 16

def encodedLength (event : Event) : Nat := fixedLength + event.size

def encode (event : Event) : Bytes :=
  bigEndian 4 event.id.toNat ++ [event.level.code, 0] ++ bigEndian 2 event.size ++
    bigEndian 8 event.timestamp.toNat ++ event.payload

/-- The fields of the fixed part, each with its offset. -/
def fixedFields (event : Event) : List (Nat × Bytes) :=
  [(0, bigEndian 4 event.id.toNat), (4, [event.level.code]), (5, [0]),
    (6, bigEndian 2 event.size), (8, bigEndian 8 event.timestamp.toNat)]

/-- Writes the record behind what `out` holds.  Room is made for the fixed part, the
fields are put in their places, and the payload follows. -/
def appendTo (event : Event) (out : Bytes) : Bytes :=
  let room := out ++ List.replicate fixedLength 0
  let place (bytes : Bytes) (field : Nat × Bytes) : Bytes :=
    overwrite bytes (out.length + field.1) field.2
  event.fixedFields.foldl place room ++ event.payload

/-- The record at the front of `bytes` and the number of bytes it takes up.
The checks come in the order in which a reader can make them: enough bytes for
the fixed part, a known level, a size that a record can hold, enough bytes for
the payload. -/
def decode (bytes : Bytes) : Except Error (Event × Nat) :=
  if bytes.length < fixedLength then
    .error (.truncated fixedLength bytes.length)
  else
    let code := UInt8.ofNat (numberAt bytes 4 1)
    let size := numberAt bytes 6 2
    match Level.ofCode? code with
    | none => .error (.invalidArgument (.unknownLevel code))
    | some level =>
      if maxPayload < size then
        .error (.payloadOutOfRange size maxPayload)
      else if bytes.length < fixedLength + size then
        .error (.truncated (fixedLength + size) bytes.length)
      else
        let payload := (bytes.drop fixedLength).take size
        match make (.ofNat (numberAt bytes 0 4)) level payload (.ofNat (numberAt bytes 8 8)) with
        | .ok event => .ok (event, fixedLength + size)
        | .error error => .error error

/-- A record that was read took at least its fixed part, and no more than there
was. -/
theorem used_of_decode {bytes : Bytes} {event : Event} {used : Nat}
    (h : decode bytes = .ok (event, used)) :
    fixedLength ≤ used ∧ used ≤ bytes.length := by
  simp only [decode] at h
  repeat' split at h
  all_goals first | contradiction | skip
  simp only [Except.ok.injEq, Prod.mk.injEq] at h
  omega

/-- Consecutive records that take up exactly `bytes`. -/
def decodeAll (bytes : Bytes) : Except Error (List Event) :=
  if bytes = [] then
    .ok []
  else
    match _hrecord : decode bytes with
    | .error error => .error error
    | .ok (event, used) =>
      match decodeAll (bytes.drop used) with
      | .error error => .error error
      | .ok events => .ok (event :: events)
termination_by bytes.length
decreasing_by
  have := used_of_decode _hrecord
  simp only [fixedLength] at this
  simp only [List.length_drop]
  omega

end Telemetry.Event
