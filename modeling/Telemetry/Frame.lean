import Telemetry.Event.Wire
import Telemetry.Header

/-!
# Event frames

A frame is a header of type `eventBatch` and the records that its payload
length covers.  Bytes after the declared payload belong to nobody and are
ignored; a payload that does not split into whole records is refused entirely.
-/

namespace Telemetry

structure Frame where
  header : Header
  events : List Event
  deriving DecidableEq

namespace Frame

/-- Bytes that the records of `events` take up. -/
def payloadSize : List Event → Nat
  | [] => 0
  | event :: events => event.encodedLength + payloadSize events

/-- The largest payload that the length field can announce. -/
def maxPayloadSize : Nat := UInt32.size - 1

/-- The frame that carries `events`. -/
def encode (sequence : UInt32) (timestamp : UInt64) (events : List Event) :
    Except Error Bytes :=
  if payloadSize events ≤ maxPayloadSize then
    let header := Header.make .eventBatch sequence timestamp (.ofNat (payloadSize events))
    match header.encode with
    | .ok bytes => .ok (bytes ++ events.flatMap Event.encode)
    | .error error => .error error
  else
    .error (.invalidArgument (.frameTooLarge (payloadSize events)))

/-- The frame at the front of `bytes`. -/
def decode (bytes : Bytes) : Except Error Frame :=
  match Header.decode bytes with
  | .error error => .error error
  | .ok header =>
    if header.messageType ≠ MessageType.eventBatch.code then
      .error (.invalidArgument (.notEventBatch header.messageType))
    else
      let payload := (bytes.drop Header.length).take header.payloadLength.toNat
      match Event.decodeAll payload with
      | .error error => .error error
      | .ok events => .ok { header, events }

end Frame

end Telemetry
