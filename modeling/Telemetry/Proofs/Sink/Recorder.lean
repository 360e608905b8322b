import Telemetry.Proofs.Agent.Moves

/-!
# Recording a sink

A recorder stands between an agent and its sink and writes down every call with
its answer.  It passes everything on unchanged, so an agent over a recorder does
exactly what it does over the sink itself; statements about the calls a sink got
are statements about its record.
-/

namespace Telemetry

/-- One call that a sink got. -/
inductive SinkCall where
  | init (config : SinkConfig)
  | send (event : Event) (answer : Answer)
  | shutdown
  deriving DecidableEq

/-- The event that a call hands over. -/
def SinkCall.event? : SinkCall → Option Event
  | send event _ => some event
  | _ => none

structure Recorder (σ : Type) where
  inner : σ
  /-- The calls so far, in the order in which they came. -/
  calls : List SinkCall := []

variable {σ : Type}

/-- The events handed over so far. -/
def Recorder.handed (recorder : Recorder σ) : List Event :=
  recorder.calls.filterMap SinkCall.event?

variable [Sink σ]

namespace Recorder

def init (recorder : Recorder σ) (config : SinkConfig) : Except Error Unit × Recorder σ :=
  let (result, inner) := Sink.init recorder.inner config
  (result, { inner, calls := recorder.calls ++ [.init config] })

def send (recorder : Recorder σ) (event : Event) : Answer × Recorder σ :=
  let (answer, inner) := Sink.send recorder.inner event
  (answer, { inner, calls := recorder.calls ++ [.send event answer] })

def shutdown (recorder : Recorder σ) : Recorder σ where
  inner := Sink.shutdown recorder.inner
  calls := recorder.calls ++ [.shutdown]

instance : Sink (Recorder σ) where
  init := init
  send := send
  shutdown := shutdown

/-- A recorder answers as its sink does and writes the call down. -/
theorem send_eq {recorder : Recorder σ} {event : Event} {answer : Answer} {inner : σ}
    (h : Sink.send recorder.inner event = (answer, inner)) :
    Sink.send recorder event =
      (answer, { inner, calls := recorder.calls ++ [.send event answer] }) := by
  change send recorder event = _
  rw [send, h]

/-- A `send` is written down with its answer. -/
theorem calls_of_send {recorder after : Recorder σ} {event : Event} {answer : Answer}
    (h : Sink.send recorder event = (answer, after)) :
    after.calls = recorder.calls ++ [.send event answer] := by
  change send recorder event = (answer, after) at h
  rw [send] at h
  cases h
  rfl

/-- Whatever it answers, a `send` is handed its event once. -/
theorem handed_of_send {recorder after : Recorder σ} {event : Event} {answer : Answer}
    (h : Sink.send recorder event = (answer, after)) :
    after.handed = recorder.handed ++ [event] := by
  simp [handed, calls_of_send h, SinkCall.event?]

@[simp]
theorem handed_shutdown (recorder : Recorder σ) :
    (Sink.shutdown recorder).handed = recorder.handed := by
  change (shutdown recorder).handed = recorder.handed
  simp [shutdown, handed, SinkCall.event?]

end Recorder

namespace Agent

/-- The agent with the recorder taken out. -/
def forget (agent : Agent (Recorder σ)) : Agent σ :=
  { agent with sink := agent.sink.inner }

theorem forget_finishSend (agent : Agent (Recorder σ)) (event : Event) (room : Option Nat) :
    (agent.finishSend event room).forget = agent.forget.finishSend event room := by
  rcases hsend : Sink.send agent.sink.inner event with ⟨answer, inner⟩
  have hforget : Sink.send agent.forget.sink event = (answer, inner) := hsend
  rw [finishSend, Recorder.send_eq hsend, finishSend, hforget]
  cases answer <;> rfl

omit [Sink σ] in
theorem forget_drain (agent : Agent (Recorder σ)) (room : Option Nat) :
    (agent.drain room).forget = agent.forget.drain room := by
  have hring : agent.forget.ring = agent.ring := rfl
  rw [drain, drain, hring]
  split
  · rfl
  · cases agent.ring.pop? <;> rfl

/-- A worker over a recorder takes the steps that it takes over the sink. -/
theorem step?_forget (agent : Agent (Recorder σ)) :
    agent.forget.step? = agent.step?.map forget := by
  have hworker : agent.forget.worker = agent.worker := rfl
  have hpending : agent.forget.pending = agent.pending := rfl
  have hstalled : agent.forget.stalled = agent.stalled := rfl
  rw [step?, step?, hworker, hpending, hstalled]
  cases agent.worker with
  | waiting => cases agent.pending <;> rfl
  | draining room => exact congrArg some (forget_drain agent room).symm
  | sending event room =>
    cases agent.stalled with
    | false => exact congrArg some (forget_finishSend agent event room).symm
    | true => rfl
  | checking emptied => rfl
  | exited => rfl
  | dead => rfl

/-- And it comes to rest where it does over the sink. -/
theorem forget_settle (agent : Agent (Recorder σ)) :
    agent.settle.forget = agent.forget.settle := by
  induction agent using settle.induct with
  | case1 agent after hstep ih =>
    have hforget : agent.forget.step? = some after.forget := by
      rw [step?_forget, hstep]
      rfl
    rw [settle_of_step? hstep, settle_of_step? hforget, ih]
  | case2 agent hstep =>
    have hforget : agent.forget.step? = none := by
      rw [step?_forget, hstep]
      rfl
    rw [settle_of_rest hstep, settle_of_rest hforget]

omit [Sink σ] in
theorem start_forget (config : AgentConfig) (ring : EventRing) (recorder : Recorder σ)
    (refusal : Option String) :
    start config ring recorder.inner refusal =
      (start config ring recorder refusal).map forget := by
  rw [start, start]
  split
  · rfl
  · cases refusal <;> rfl

theorem forget_join (agent : Agent (Recorder σ)) : agent.join.forget = agent.forget.join := by
  have hworker : agent.forget.worker = agent.worker := rfl
  rw [join, join, hworker]
  cases agent.worker <;> rfl

theorem forget_drop (agent : Agent (Recorder σ)) : agent.drop.forget = agent.forget.drop := by
  have hrunning : agent.forget.running = agent.running := rfl
  rw [drop, drop, teardown, teardown, hrunning]
  split
  · rw [forget_join, forget_settle]
    rfl
  · rfl

end Agent

end Telemetry
