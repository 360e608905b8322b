import Mathlib
import Telemetry.Agent

/-!
# The moves of a worker

A step of the worker is one of eleven moves, each with the place where it is
made, what it asks of the agent and all that it changes.  What a step keeps is
read off this list, and what a worker keeps until it rests follows for `settle`
by induction.
-/

namespace Telemetry.Agent

variable {σ : Type} [Sink σ]

/-- `Move before after`: the worker of `before` can go on to `after`. -/
inductive Move (agent : Agent σ) : Agent σ → Prop where
  /-- A pending wakeup is consumed. -/
  | wake (hworker : agent.worker = .waiting) (hpending : agent.pending = true) :
      Move agent
        { agent with pending := false, worker := .draining (some agent.drainLimit) }
  /-- The batch has taken as many events as it may. -/
  | full (hworker : agent.worker = .draining (some 0)) :
      Move agent { agent with worker := .checking false }
  /-- The oldest event leaves the ring. -/
  | take (room : Option Nat) (event : Event) (ring : EventRing)
      (hworker : agent.worker = .draining room) (hroom : room ≠ some 0)
      (hpop : agent.ring.pop? = some (event, ring)) :
      Move agent { agent with ring, worker := .sending event (room.map (· - 1)) }
  /-- A bounded batch has seen the ring empty. -/
  | emptied (room : Nat) (hworker : agent.worker = .draining (some (room + 1)))
      (hpop : agent.ring.pop? = none) :
      Move agent { agent with worker := .checking true }
  /-- The last batch has seen the ring empty. -/
  | exit (hworker : agent.worker = .draining none) (hpop : agent.ring.pop? = none) :
      Move agent { agent with worker := .exited }
  | sent (event : Event) (room : Option Nat) (sink : σ)
      (hworker : agent.worker = .sending event room) (hstalled : agent.stalled = false)
      (hsend : Sink.send agent.sink event = (.accepted, sink)) :
      Move agent { agent with sink, stats := agent.stats.addSent, worker := .draining room }
  | rejected (event : Event) (room : Option Nat) (error : Error) (sink : σ)
      (hworker : agent.worker = .sending event room) (hstalled : agent.stalled = false)
      (hsend : Sink.send agent.sink event = (.rejected error, sink)) :
      Move agent
        { agent with sink, stats := agent.stats.addSendFailure, worker := .draining room }
  | panicked (event : Event) (room : Option Nat) (sink : σ)
      (hworker : agent.worker = .sending event room) (hstalled : agent.stalled = false)
      (hsend : Sink.send agent.sink event = (.panicked, sink)) :
      Move agent { agent with sink, worker := .dead }
  /-- The stop flag is seen, and the last batch begins. -/
  | stop (emptied : Bool) (hworker : agent.worker = .checking emptied)
      (hstopping : agent.stopping = true) :
      Move agent { agent with worker := .draining none }
  /-- No stop, and the ring may hold more. -/
  | again (hworker : agent.worker = .checking false) (hstopping : agent.stopping = false) :
      Move agent { agent with worker := .draining (some agent.drainLimit) }
  /-- No stop, and the ring was empty. -/
  | sleep (hworker : agent.worker = .checking true) (hstopping : agent.stopping = false) :
      Move agent { agent with worker := .waiting }

variable {agent after : Agent σ}

/-- Every step of the worker is one of the moves. -/
theorem move_of_step? (h : agent.step? = some after) : Move agent after := by
  rw [step?] at h
  split at h
  · next hworker =>
    split at h
    · next hpending =>
      cases h
      exact .wake hworker hpending
    · cases h
  · next room hworker =>
    cases h
    rw [drain]
    split
    · next hroom =>
      subst hroom
      exact .full hworker
    · next hroom =>
      split
      · next event ring hpop => exact .take room event ring hworker hroom hpop
      · next hpop =>
        cases room with
        | none => exact .exit hworker hpop
        | some room =>
          cases room with
          | zero => exact absurd rfl hroom
          | succ room => exact .emptied room hworker hpop
  · next event room hworker =>
    split at h
    · cases h
    · next hstalled =>
      have hstalled : agent.stalled = false := by simpa using hstalled
      cases h
      rw [finishSend]
      split
      · next sink hsend => exact .sent event room sink hworker hstalled hsend
      · next error sink hsend => exact .rejected event room error sink hworker hstalled hsend
      · next sink hsend => exact .panicked event room sink hworker hstalled hsend
  · next emptied hworker =>
    cases h
    split
    · next hstopping => exact .stop emptied hworker hstopping
    · next hstopping =>
      have hstopping : agent.stopping = false := by simpa using hstopping
      split
      · next hemptied =>
        subst hemptied
        exact .sleep hworker hstopping
      · next hemptied =>
        have hemptied : emptied = false := by simpa using hemptied
        subst hemptied
        exact .again hworker hstopping
  · cases h
  · cases h

/-- When its turn comes the worker makes a move, or it stays where it is. -/
theorem rest_or_move (agent : Agent σ) :
    agent.step?.getD agent = agent ∨ Move agent (agent.step?.getD agent) := by
  cases hstep : agent.step? with
  | none => exact .inl rfl
  | some after => exact .inr (move_of_step? hstep)

/-! ## A fresh agent -/

/-- The worker sleeps over the given ring and sink, and nobody has asked for
anything yet. -/
structure Fresh (agent : Agent σ) (ring : EventRing) (sink : σ) : Prop where
  ring_eq : agent.ring = ring
  sink_eq : agent.sink = sink
  stats_eq : agent.stats = {}
  worker_eq : agent.worker = .waiting
  pending_eq : agent.pending = false
  stopping_eq : agent.stopping = false
  stalled_eq : agent.stalled = false
  running_eq : agent.running = true

omit [Sink σ] in
theorem fresh_of_start {config : AgentConfig} {ring : EventRing} {sink : σ}
    {refusal : Option String} (h : start config ring sink refusal = .ok agent) :
    Fresh agent ring sink := by
  rw [start] at h
  split at h
  · cases h
  · split at h
    · cases h
    · cases h
      exact ⟨rfl, rfl, rfl, rfl, rfl, rfl, rfl, rfl⟩

omit [Sink σ] in
/-- The configuration is looked at before the system is asked for a thread. -/
theorem start_of_invalid {config : AgentConfig} {fault : ArgumentFault}
    (h : config.validate = .error fault) (ring : EventRing) (sink : σ) (refusal : Option String) :
    start config ring sink refusal = .error (.invalidArgument fault) := by
  rw [start]
  split
  · next fault' hfault =>
    rw [h] at hfault
    cases hfault
    rfl
  · next hvalid =>
    rw [h] at hvalid
    cases hvalid

omit [Sink σ] in
theorem start_of_refused {config : AgentConfig} (h : config.validate = .ok ()) (ring : EventRing)
    (sink : σ) (reason : String) : start config ring sink (some reason) =
      .error (.workerCreation ("worker thread '" ++ config.threadName ++ "'") reason) := by
  rw [start]
  split
  · next fault hfault =>
    rw [h] at hfault
    cases hfault
  · rfl

omit [Sink σ] in
theorem start_of_valid {config : AgentConfig} (h : config.validate = .ok ()) (ring : EventRing)
    (sink : σ) : ∃ agent, start config ring sink = .ok agent := by
  rw [start]
  split
  · next fault hfault =>
    rw [h] at hfault
    cases hfault
  · exact ⟨_, rfl⟩

/-! ## What no move changes -/

theorem Move.stalled_eq (h : Move agent after) : after.stalled = agent.stalled := by
  cases h <;> rfl

theorem Move.stopping_eq (h : Move agent after) : after.stopping = agent.stopping := by
  cases h <;> rfl

theorem Move.running_eq (h : Move agent after) : after.running = agent.running := by
  cases h <;> rfl

/-! ## Running to rest -/

/-- Where the worker cannot step it waits for something that others must do, or
it is gone. -/
theorem rest_of_step?_eq_none (h : agent.step? = none) :
    (agent.worker = .waiting ∧ agent.pending = false) ∨
      (∃ event room, agent.worker = .sending event room ∧ agent.stalled = true) ∨
      agent.worker = .exited ∨ agent.worker = .dead := by
  rw [step?] at h
  split at h
  · next hworker => simp_all
  · cases h
  · next event room hworker => simp_all
  · cases h
  · simp_all
  · simp_all

theorem settle_of_step? (h : agent.step? = some after) : agent.settle = after.settle := by
  rw [settle]
  split
  · next next hstep =>
    rw [h] at hstep
    cases hstep
    rfl
  · next hstep =>
    rw [h] at hstep
    cases hstep

theorem settle_of_rest (h : agent.step? = none) : agent.settle = agent := by
  rw [settle]
  split
  · next next hstep =>
    rw [h] at hstep
    cases hstep
  · rfl

/-- What every move keeps holds where the worker comes to rest. -/
theorem settle_induction {motive : Agent σ → Prop}
    (hmove : ∀ {agent after}, Move agent after → motive agent → motive after)
    (h : motive agent) : motive agent.settle := by
  induction agent using settle.induct with
  | case1 agent after hstep ih =>
    rw [settle_of_step? hstep]
    exact ih (hmove (move_of_step? hstep) h)
  | case2 agent hstep =>
    rw [settle_of_rest hstep]
    exact h

theorem step?_settle (agent : Agent σ) : agent.settle.step? = none := by
  induction agent using settle.induct with
  | case1 agent after hstep ih =>
    rw [settle_of_step? hstep]
    exact ih
  | case2 agent hstep =>
    rw [settle_of_rest hstep]
    exact hstep

end Telemetry.Agent
