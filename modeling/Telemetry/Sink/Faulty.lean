import Telemetry.Sink.Counting

/-!
# Faulty sink

A counting sink that panics once, instead of making the attempt whose number is
given.  The attempt is not counted and the event is lost.
-/

namespace Telemetry

structure FaultySink where
  inner : CountingSink
  /-- Number of the attempt that panics; `none` once it has. -/
  panicAt : Option UInt64

namespace FaultySink

def send (sink : FaultySink) (event : Event) : Answer × FaultySink :=
  if sink.panicAt = some (sink.inner.attempts + 1) then
    (.panicked, { sink with panicAt := none })
  else
    let (answer, inner) := sink.inner.send event
    (answer, { sink with inner })

instance : Sink FaultySink where
  init sink _ := (.ok (), { sink with inner := sink.inner.init })
  send := send
  shutdown sink := { sink with inner := sink.inner.shutdown }

end FaultySink

end Telemetry
