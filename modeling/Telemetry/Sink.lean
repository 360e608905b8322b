import Telemetry.Config
import Telemetry.Event

/-!
# Sinks

A sink is where drained events end up.  It is a state machine: each operation
answers and moves to a next state.  `send` may also panic, which ends the worker
that called it.
-/

namespace Telemetry

/-- How a sink answers a `send`. -/
inductive Answer where
  | accepted
  | rejected (error : Error)
  | panicked
  deriving DecidableEq, Repr

class Sink (σ : Type) where
  init : σ → SinkConfig → Except Error Unit × σ
  send : σ → Event → Answer × σ
  shutdown : σ → σ

end Telemetry
