import Telemetry.Frame
import Telemetry.Text.Numeral
import Telemetry.Text.Utf8

/-!
# The receiver

Prints the events of every datagram that arrives.  All datagrams are received into one
buffer, which is not cleared in between; of a datagram that is too long for it the rest is
lost.  One that does not decode costs a warning and nothing else.
-/

namespace Telemetry.Receiver

def defaultPort : UInt16 := 9000

/-- Bytes of a datagram that are looked at; the rest is cut off. -/
def bufferLength : Nat := 2048

/-- What every datagram is received into. -/
abbrev Buffer := Vector UInt8 bufferLength

namespace Buffer

def zero : Buffer := .replicate bufferLength 0

/-- Writes a datagram over the front of the buffer, as far as it fits, and returns how many
bytes that was.  Behind them the buffer is as it was. -/
def receive (buffer : Buffer) (datagram : Bytes) : Nat × Buffer :=
  let received := datagram.take bufferLength
  (received.length, .ofFn fun index => received[index]?.getD buffer[index])

/-- The first bytes of the buffer. -/
def front (buffer : Buffer) (length : Nat) : Bytes := buffer.toList.take length

end Buffer

/-- One line of the receiver's log, without its time stamp. -/
structure LogLine where
  level : Level
  message : String
  fields : List (String × String)
  deriving DecidableEq, Repr

/-- Level, origin and message, then each field as `name=value`. -/
def LogLine.render (line : LogLine) : String :=
  let fields := line.fields.map fun (name, value) => " " ++ name ++ "=" ++ value
  line.level.label ++ " telemetry_receiver: " ++ line.message ++ String.join fields

/-- The line behind its time stamp, with labels aligned to the right. -/
def LogLine.stamped (line : LogLine) (time : String) : String :=
  time ++ " " ++ "".pushn ' ' (5 - line.level.label.length) ++ line.render

def listening (port : UInt16) : LogLine :=
  ⟨.info, "Listening for telemetry frames", [("port", toString port)]⟩

def eventLine (sender : String) (sequence : UInt32) (event : Event) : LogLine :=
  ⟨.info, "Event",
    [("from", sender), ("sequence", toString sequence), ("event_id", toString event.id),
      ("level", event.level.label), ("timestamp_ns", toString event.timestamp),
      ("payload", Utf8.decodeLossy event.payload)]⟩

def undecodable (sender : String) (size : Nat) (error : Error) : LogLine :=
  ⟨.warning, "Skipping undecodable datagram",
    [("from", sender), ("bytes", toString size), ("error", error.message)]⟩

/-- What is logged about the bytes received of one datagram. -/
def report (sender : String) (received : Bytes) : List LogLine :=
  match Frame.decode received with
  | .ok frame => frame.events.map (eventLine sender frame.header.sequence)
  | .error error => [undecodable sender received.length error]

/-- What is logged about datagrams that arrive one after the other. -/
def reports (buffer : Buffer) : List (String × Bytes) → List LogLine
  | [] => []
  | (sender, datagram) :: arrivals =>
    let (length, buffer) := buffer.receive datagram
    report sender (buffer.front length) ++ reports buffer arrivals

/-- The log of a receiver on `port` after the given datagrams. -/
def log (port : UInt16) (arrivals : List (String × Bytes)) : List LogLine :=
  listening port :: reports .zero arrivals

/-- The port named on the command line. -/
def port (argument : Option String) : Except Numeral.Fault UInt16 :=
  match argument with
  | none => .ok defaultPort
  | some text => (Numeral.bounded 65535 text.toList).map UInt16.ofNat

/-- What is printed when the receiver cannot go on. -/
def complaint (what cause : String) : String :=
  "Error: " ++ what ++ "\n\nCaused by:\n    " ++ cause ++ "\n"

/-- What is printed about a port that is no port. -/
def portComplaint (argument : String) (fault : Numeral.Fault) : String :=
  complaint ("Invalid port '" ++ argument ++ "'") fault.message

end Telemetry.Receiver
