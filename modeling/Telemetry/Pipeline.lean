import Telemetry.Agent
import Telemetry.Sink.Datagram

/-!
# The whole pipeline

Ring, agent and datagram sink built from one configuration and run over a list
of events: all events are offered first, then the agent is woken and stopped.
-/

namespace Telemetry.Pipeline

/-- What is left when the pipeline has been stopped. -/
structure Outcome (ν : Type) where
  /-- For each event offered, whether the ring took it. -/
  accepted : List Bool
  stats : Stats
  ring : EventRing
  sink : DatagramSink ν

/-- Offers events one after the other. -/
def offer (ring : EventRing) : List Event → List Bool × EventRing
  | [] => ([], ring)
  | event :: events =>
    let (accepted, ring) := ring.push event
    let (others, ring) := offer ring events
    (accepted :: others, ring)

variable {ν : Type} [Network ν]

/-- Runs `events` through a pipeline that is woken `wakeups` times. -/
def run (memory : Memory) (network : ν) (config : Config) (events : List Event)
    (wakeups : Nat) : Except Error (Outcome ν) := do
  config.validate
  let ring ← EventRing.create memory config.ringCapacity
  let (connected, sink) := DatagramSink.init { network } config.sink
  connected
  let (accepted, ring) := offer ring events
  let agent ← Agent.start config.agent ring sink
  let agent := (Nat.repeat Agent.notify wakeups agent).settle
  let (stats, agent) := agent.stop
  return { accepted, stats, ring := agent.ring, sink := agent.sink }

end Telemetry.Pipeline
