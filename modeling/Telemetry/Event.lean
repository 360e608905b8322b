import Telemetry.Error
import Telemetry.Level

/-!
# Event records

An event record has a fixed footprint so that a queue slot can hold any of
them: the payload lives in a 128-byte buffer and a size says how much of it is
meant.  The bytes past the payload are zero, which is part of the type.  Two
records are therefore equal as soon as everything an observer can see of them
is.
-/

namespace Telemetry

/-- Room for payload bytes in one record. -/
def maxPayload : Nat := 128

structure Event where
  id : UInt32
  level : Level
  /-- Nanoseconds of a monotonic clock with an unspecified epoch. -/
  timestamp : UInt64
  /-- Number of meaningful bytes at the front of `buffer`. -/
  size : Nat
  buffer : Vector UInt8 maxPayload
  size_le : size ≤ maxPayload
  padding : buffer.toList.drop size = List.replicate (maxPayload - size) 0
  deriving DecidableEq

namespace Event

/-- The meaningful bytes. -/
def payload (event : Event) : Bytes := event.buffer.toList.take event.size

/-- A payload followed by as many zeros as fill the buffer. -/
def padded (payload : Bytes) (fits : payload.length ≤ maxPayload) :
    Vector UInt8 maxPayload :=
  ⟨(payload ++ List.replicate (maxPayload - payload.length) 0).toArray, by
    simp; omega⟩

/-- A record with the given contents.  A payload over the maximum is refused. -/
def make (id : UInt32) (level : Level) (payload : Bytes) (timestamp : UInt64) :
    Except Error Event :=
  if fits : payload.length ≤ maxPayload then
    .ok {
      id, level, timestamp
      size := payload.length
      buffer := padded payload fits
      size_le := fits
      padding := by simp [padded] }
  else
    .error (.invalidArgument (.payloadTooLong payload.length))

/-- The record with no payload and everything else at its least. -/
def blank : Event where
  id := 0
  level := .debug
  timestamp := 0
  size := 0
  buffer := Vector.replicate maxPayload 0
  size_le := Nat.zero_le _
  padding := by simp

instance : Inhabited Event := ⟨blank⟩

/-- The level byte is checked before the payload. -/
def ofCode (id : UInt32) (code : UInt8) (payload : Bytes) (timestamp : UInt64) :
    Except Error Event :=
  match Level.ofCode? code with
  | some level => make id level payload timestamp
  | none => .error (.invalidArgument (.unknownLevel code))

/-- One line that shows every field, the payload as decimal byte values. -/
def summary (event : Event) : String :=
  let bytes := String.intercalate ", " (event.payload.map toString)
  "EventRecord \x7b event_id: " ++ toString event.id ++
    ", level: " ++ event.level.name ++
    ", timestamp: " ++ toString event.timestamp ++
    ", payload: [" ++ bytes ++ "] \x7d"

@[simp]
theorem length_payload (event : Event) : event.payload.length = event.size := by
  simp [payload, event.size_le]

theorem buffer_eq (event : Event) :
    event.buffer.toList = event.payload ++ List.replicate (maxPayload - event.size) 0 := by
  rw [payload, ← event.padding, List.take_append_drop]

/-- What `make` stores is what `payload` shows. -/
theorem payload_of_make {id : UInt32} {level : Level} {payload : Bytes}
    {timestamp : UInt64} {event : Event}
    (h : make id level payload timestamp = .ok event) : event.payload = payload := by
  unfold make at h
  split at h
  · cases h
    simp [Event.payload, padded]
  · cases h

end Event

end Telemetry
