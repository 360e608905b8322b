import Telemetry.Event

/-!
# Sample events

Ready-made records for trying out a pipeline: informational, with the id as the
time stamp.
-/

namespace Telemetry.Event

/-- A sample with a payload, refused when the payload is too long. -/
def sampleWith (id : UInt32) (payload : Bytes) : Except Error Event :=
  make id .info payload id.toUInt64

/-- A sample without a payload. -/
def sample (id : UInt32) : Event :=
  { blank with id, level := .info, timestamp := id.toUInt64 }

/-- The payload of a full sample counts up from the id, modulo 256. -/
def fullPayload (id : UInt32) : Bytes :=
  (List.range maxPayload).map fun index => UInt8.ofNat (index + id.toNat)

/-- A sample whose payload fills the buffer. -/
def fullSample (id : UInt32) : Event :=
  { blank with
    id, level := .info, timestamp := id.toUInt64
    size := maxPayload
    buffer := padded (fullPayload id) (by simp [fullPayload])
    size_le := Nat.le_refl _
    padding := by simp [padded, fullPayload] }

/-- The complaint about a sample that cannot be built. -/
def sampleComplaint (id : UInt32) (error : Error) : String :=
  s!"invalid test event {id}: {error.message}"

end Telemetry.Event
