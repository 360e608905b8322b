import Std.Async.UDP
import Std.Time
import Telemetry.Receiver

/-!
# The receiver program

Listens on a UDP port, 9000 unless another is given, and prints the log of the
receiver line by line, each line with the time in front.
-/

namespace Telemetry.Receiver

open Std.Async Std.Net

/-- A sender as address and port. -/
def senderName : Option SocketAddress → String
  | some (.v4 address) => toString address.addr ++ ":" ++ toString address.port
  | some (.v6 address) => "[" ++ toString address.addr ++ "]:" ++ toString address.port
  | none => "unknown"

def printLine (line : LogLine) : IO Unit := do
  let now := Std.Time.DateTime.ofTimestamp (← Std.Time.Timestamp.now) .UTC
  let output ← IO.getStdout
  output.putStrLn (line.stamped (now.format "uuuu-MM-dd'T'HH:mm:ss.SSSSSS'Z'"))
  output.flush

/-- Reports one datagram after the other until receiving fails. -/
partial def serve (socket : UDP.Socket) (buffer : Buffer) : IO Unit := do
  let (datagram, sender) ← (socket.recv (.ofNat bufferLength)).block
  let (length, buffer) := buffer.receive datagram.toList
  (report (senderName sender) (buffer.front length)).forM printLine
  serve socket buffer

/-- Runs an action and returns its exit code.  A failure is explained and ends in
exit code 1. -/
def explaining (what : String) (action : IO UInt32) : IO UInt32 := do
  try action
  catch error =>
    IO.eprint (complaint what (toString error))
    return 1

/-- The program with its command line. -/
def run (arguments : List String) : IO UInt32 := do
  match port arguments.head? with
  | .error fault =>
    IO.eprint (portComplaint (arguments.headD "") fault)
    return 1
  | .ok port =>
    explaining ("Binding UDP port " ++ toString port) do
      let socket ← UDP.Socket.mk
      socket.bind (.v4 ⟨.ofParts 0 0 0 0, port⟩)
      printLine (listening port)
      explaining "Receiving datagram" do
        serve socket .zero
        return 0

end Telemetry.Receiver

def main (arguments : List String) : IO UInt32 :=
  Telemetry.Receiver.run arguments
