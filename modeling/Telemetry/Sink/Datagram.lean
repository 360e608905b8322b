import Telemetry.Frame
import Telemetry.Network
import Telemetry.Sink

/-!
# Datagram sink

Each event travels as a frame of its own in one datagram.  Frames are numbered
from 0 on since the last successful `init`, modulo 2^32, and only a frame that
was handed over uses up a number.
-/

namespace Telemetry

structure DatagramSink (ν : Type) where
  network : ν
  /-- The peer of the socket held, if one is. -/
  socket : Option Address := none
  /-- The collector of the last successful `init`. -/
  peer : Option Address := none
  /-- Largest frame that is sent; 0 before `init`. -/
  limit : Nat := 0
  /-- Number of the next frame. -/
  sequence : UInt32 := 0

namespace DatagramSink

variable {ν : Type} [Network ν]

/-- Looks the endpoint up, binds a socket anywhere and connects it to the first
address found.  A failure leaves the previous connection in place. -/
def init (sink : DatagramSink ν) (config : SinkConfig) :
    Except Error Unit × DatagramSink ν :=
  match Network.resolve sink.network config.endpoint with
  | .error reason => (.error (.sinkInit config.endpoint (some reason)), sink)
  | .ok [] => (.error (.sinkInit config.endpoint none), sink)
  | .ok (address :: _) =>
    match Network.bind sink.network address.unspecified with
    | (.error reason, network) =>
      (.error (.sinkInit config.endpoint (some reason)), { sink with network })
    | (.ok (), network) =>
      match Network.connect network address with
      | (.error reason, network) =>
        (.error (.sinkInit config.endpoint (some reason)), { sink with network })
      | (.ok (), network) =>
        (.ok (), {
          network
          socket := some address
          peer := some address
          limit := config.datagramLimit.toNat
          sequence := 0 })

/-- Frames the event, checks the frame against the limit and hands it over. -/
def send (sink : DatagramSink ν) (event : Event) : Answer × DatagramSink ν :=
  match sink.socket with
  | none => (.rejected (.sendFailure .notConnected none), sink)
  | some address =>
    let (time, network) := Network.now sink.network
    match Frame.encode sink.sequence time [event] with
    | .error error => (.rejected error, { sink with network })
    | .ok frame =>
      if sink.limit < frame.length then
        (.rejected (.sendFailure (.frameOverLimit frame.length sink.limit) none),
          { sink with network })
      else
        match Network.transmit network address frame with
        | (.error reason, network) =>
          (.rejected (.sendFailure .refusedByNetwork (some reason)), { sink with network })
        | (.ok written, network) =>
          if written = frame.length then
            (.accepted, { sink with network, sequence := sink.sequence + 1 })
          else
            (.rejected (.sendFailure (.shortWrite written frame.length) none),
              { sink with network })

/-- Gives the socket up.  Peer, limit and numbering stay. -/
def shutdown (sink : DatagramSink ν) : DatagramSink ν := { sink with socket := none }

instance : Sink (DatagramSink ν) where
  init := init
  send := send
  shutdown := shutdown

end DatagramSink

end Telemetry
