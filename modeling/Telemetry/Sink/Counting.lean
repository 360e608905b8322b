import Telemetry.Sink

/-!
# Counting sink

A sink that only counts.  It can keep the events it took, and it can fail every
`n`-th attempt on purpose.  Attempts are counted over the sink's whole life.
-/

namespace Telemetry

structure CountingSink where
  /-- Whether taken events are kept. -/
  recording : Bool := false
  /-- Every attempt whose number this divides fails; 0 stands for never. -/
  failEvery : UInt64 := 0
  attempts : UInt64 := 0
  count : UInt64 := 0
  /-- The events kept, latest first. -/
  kept : List Event := []
  initialized : Bool := false
  shutDown : Bool := false

namespace CountingSink

/-- The events kept, in the order in which they came. -/
def events (sink : CountingSink) : List Event := sink.kept.reverse

def init (sink : CountingSink) : CountingSink := { sink with initialized := true }

def shutdown (sink : CountingSink) : CountingSink := { sink with shutDown := true }

def send (sink : CountingSink) (event : Event) : Answer × CountingSink :=
  let attempts := sink.attempts + 1
  if 0 < sink.failEvery ∧ attempts % sink.failEvery = 0 then
    (.rejected (.sendFailure (.injected attempts) none), { sink with attempts })
  else
    (.accepted, { sink with
      attempts
      count := sink.count + 1
      kept := if sink.recording then event :: sink.kept else sink.kept })

instance : Sink CountingSink where
  init sink _ := (.ok (), sink.init)
  send := send
  shutdown := shutdown

end CountingSink

end Telemetry
