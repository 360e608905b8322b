import Telemetry.Proofs.Ring.Contents
import Telemetry.Proofs.Sink.Recorder

/-!
# Runs of agent sessions

A session is an agent with its worker, its owner and any number of others who
push events and call `notify`.  Each of them takes one step at a time, in any
order: the owner's way of ending the session is two steps, first the stop flag
and then the wakeup, and a `send` may be held up for as long as one likes.

A rig is a ring and a sink that consecutive sessions share.  Between sessions
nobody drains the ring; neither a configuration that does not validate nor a system
that refuses a thread starts anything; the next session can begin when the worker of
the last has been joined.
-/

namespace Telemetry

/-- How far the owner of an agent has come in ending it. -/
inductive Owner where
  | holding
  /-- The stop flag is stored, the worker has not been woken for it. -/
  | flagged
  /-- The worker has been woken, and the owner waits for it to return. -/
  | joining
  deriving DecidableEq

structure Session (σ : Type) where
  agent : Agent σ
  owner : Owner := .holding

/-- One step of somebody in a session. -/
inductive SessionStep where
  | push (event : Event)
  /-- A wakeup is counted and made pending, through the agent or a notifier. -/
  | notify
  /-- The worker takes one step, if it can. -/
  | work
  /-- From here on no `send` returns. -/
  | stall
  | release
  /-- The owner begins to end the session: it stores the stop flag. -/
  | flag
  /-- The owner wakes the worker. -/
  | wake
  deriving DecidableEq

variable {σ : Type} [Sink σ]

namespace Session

/-- A step that nobody can take changes nothing. -/
def step (session : Session σ) : SessionStep → Session σ
  | .push event => { session with agent := (session.agent.push event).2 }
  | .notify => { session with agent := session.agent.notify }
  | .work => { session with agent := session.agent.step?.getD session.agent }
  | .stall => { session with agent := session.agent.stall }
  | .release => { session with agent := session.agent.release }
  | .flag =>
    match session.owner with
    | .holding =>
      { agent := { session.agent with running := false }.raiseStop, owner := .flagged }
    | _ => session
  | .wake =>
    match session.owner with
    | .flagged => { agent := session.agent.signal, owner := .joining }
    | _ => session

def run (session : Session σ) (steps : List SessionStep) : Session σ :=
  steps.foldl step session

/-- What every step keeps holds at the end of a run. -/
theorem run_induction {motive : Session σ → Prop} {session : Session σ}
    (hstep : ∀ {session} step, motive session → motive (session.step step))
    (h : motive session) (steps : List SessionStep) : motive (session.run steps) := by
  induction steps generalizing session with
  | nil => exact h
  | cons step steps ih => exact ih (hstep step h)

section Agent

variable {motive : Agent σ → Prop}
  (hmove : ∀ {agent after}, Agent.Move agent after → motive agent → motive after)
  (hpush : ∀ {agent} event, motive agent → motive (agent.push event).2)
  (hothers : ∀ {agent} stats pending stopping stalled running, motive agent →
    motive { agent with stats, pending, stopping, stalled, running })

include hmove hpush hothers

/-- What the moves of the worker and the pushes keep of an agent, whatever else is set or
counted, every step keeps. -/
theorem agent_step {session : Session σ} (h : motive session.agent) (step : SessionStep) :
    motive (session.step step).agent := by
  obtain ⟨agent, owner⟩ := session
  have hset := fun stats pending stopping stalled running =>
    hothers stats pending stopping stalled running h
  cases step with
  | push event => exact hpush event h
  | notify =>
    exact hset agent.stats.addWakeup true agent.stopping agent.stalled agent.running
  | work =>
    change motive (agent.step?.getD agent)
    rcases agent.rest_or_move with hrest | hstep
    · rwa [hrest]
    · exact hmove hstep h
  | stall => exact hset agent.stats agent.pending agent.stopping true agent.running
  | release => exact hset agent.stats agent.pending agent.stopping false agent.running
  | flag =>
    cases owner with
    | holding => exact hset agent.stats agent.pending true agent.stalled false
    | flagged | joining => exact h
  | wake =>
    cases owner with
    | flagged => exact hset agent.stats true agent.stopping agent.stalled agent.running
    | holding | joining => exact h

theorem agent_run {session : Session σ} (h : motive session.agent) (steps : List SessionStep) :
    motive (session.run steps).agent :=
  run_induction (motive := fun session => motive session.agent)
    (fun step h => agent_step hmove hpush hothers h step) h steps

end Agent

/-- The event that a step gets into the ring, if it does. -/
def taken (session : Session σ) : SessionStep → List Event
  | .push event => if (session.agent.push event).1 then [event] else []
  | _ => []

/-- The events that were accepted in a run, in the order of their pushes. -/
def accepted (session : Session σ) : List SessionStep → List Event
  | [] => []
  | step :: steps => session.taken step ++ (session.step step).accepted steps

theorem run_append (session : Session σ) (steps behind : List SessionStep) :
    session.run (steps ++ behind) = (session.run steps).run behind :=
  List.foldl_append

theorem accepted_append (session : Session σ) (steps behind : List SessionStep) :
    session.accepted (steps ++ behind) =
      session.accepted steps ++ (session.run steps).accepted behind := by
  induction steps generalizing session with
  | nil => rfl
  | cons step steps ih =>
    rw [List.cons_append, accepted, accepted, ih, List.append_assoc]
    rfl

end Session

/-- A ring and a sink, between sessions or in one. -/
inductive Rig (σ : Type) where
  | idle (ring : EventRing) (sink : σ)
  | busy (session : Session σ)

/-- What can happen to a rig. -/
inductive RigStep where
  /-- An agent is asked for; it starts if the configuration validates and the system
  does not refuse a thread. -/
  | start (config : AgentConfig) (refusal : Option String := none)
  | step (step : SessionStep)
  /-- The owner has the worker back, which returned or panicked. -/
  | join

namespace Rig

def step : Rig σ → RigStep → Rig σ
  | idle ring sink, .start config refusal =>
    match Agent.start config ring sink refusal with
    | .ok agent => busy { agent }
    | .error _ => idle ring sink
  | idle ring sink, .step (.push event) => idle (ring.push event).2 sink
  | idle ring sink, _ => idle ring sink
  | busy session, .start _ _ => busy session
  | busy session, .step step => busy (session.step step)
  | busy session, .join =>
    if session.owner = .joining ∧ (session.agent.worker = .exited ∨ session.agent.worker = .dead)
    then idle session.agent.join.ring session.agent.join.sink
    else busy session

def run (rig : Rig σ) (steps : List RigStep) : Rig σ := steps.foldl step rig

/-- What every step keeps holds at the end of a run. -/
theorem run_induction {motive : Rig σ → Prop} {rig : Rig σ}
    (hstep : ∀ {rig} step, motive rig → motive (rig.step step))
    (h : motive rig) (steps : List RigStep) : motive (rig.run steps) := by
  induction steps generalizing rig with
  | nil => exact h
  | cons step steps ih => exact ih (hstep step h)

def ring : Rig σ → EventRing
  | idle ring _ => ring
  | busy session => session.agent.ring

def sink : Rig σ → σ
  | idle _ sink => sink
  | busy session => session.agent.sink

/-- The event that a step gets into the ring, if it does. -/
def taken (rig : Rig σ) : RigStep → List Event
  | .step (.push event) => if (rig.ring.push event).1 then [event] else []
  | _ => []

/-- The events that were accepted in a run, in the order of their pushes. -/
def accepted (rig : Rig σ) : List RigStep → List Event
  | [] => []
  | step :: steps => rig.taken step ++ (rig.step step).accepted steps

end Rig

/-! ## Letting the worker work -/

/-- Some number of steps brings the worker to rest. -/
theorem Session.run_work (agent : Agent σ) (owner : Owner) :
    ∃ moves, ({ agent, owner } : Session σ).run (List.replicate moves .work) =
      { agent := agent.settle, owner } := by
  induction agent using Agent.settle.induct with
  | case1 agent after hstep ih =>
    obtain ⟨moves, hmoves⟩ := ih
    have hwork : ({ agent, owner } : Session σ).step .work = { agent := after, owner } := by
      simp only [Session.step, hstep, Option.getD_some]
    refine ⟨moves + 1, ?_⟩
    rw [Agent.settle_of_step? hstep, ← hmoves, ← hwork]
    rfl
  | case2 agent hstep =>
    refine ⟨0, ?_⟩
    rw [Agent.settle_of_rest hstep]
    rfl

/-- The steps of a session are steps of its rig. -/
theorem Rig.run_map_step (session : Session σ) (steps : List SessionStep) :
    (busy session).run (steps.map .step) = busy (session.run steps) := by
  induction steps generalizing session with
  | nil => rfl
  | cons step steps ih => exact ih (session.step step)

/-! ## What the calls keep of a sink -/

section Calls

variable {motive : σ → Prop}
  (hsend : ∀ {sink} event, motive sink → motive (Sink.send sink event).2)

include hsend

theorem Agent.Move.sink_induction {agent after : Agent σ} (h : Agent.Move agent after)
    (hsink : motive agent.sink) : motive after.sink := by
  have hafter {event : Event} {answer : Answer} {sink : σ}
      (heq : Sink.send agent.sink event = (answer, sink)) : motive sink := by
    have hmotive := hsend event hsink
    rwa [heq] at hmotive
  cases h with
  | sent event room sink hworker hstalled heq => exact hafter heq
  | rejected event room error sink hworker hstalled heq => exact hafter heq
  | panicked event room sink hworker hstalled heq => exact hafter heq
  | _ => exact hsink

theorem Rig.sink_run (hshutdown : ∀ {sink : σ}, motive sink → motive (Sink.shutdown sink))
    {rig : Rig σ} (hsink : motive rig.sink) (steps : List RigStep) :
    motive (rig.run steps).sink := by
  refine run_induction (motive := fun rig => motive rig.sink) ?_ hsink steps
  intro rig step hsink
  cases rig with
  | idle ring sink =>
    cases step with
    | start config refusal =>
      rw [Rig.step]
      cases hstart : Agent.start config ring sink refusal with
      | error error => exact hsink
      | ok agent =>
        change motive agent.sink
        rw [(Agent.fresh_of_start hstart).sink_eq]
        exact hsink
    | step step => cases step <;> exact hsink
    | join => exact hsink
  | busy session =>
    cases step with
    | start config refusal => exact hsink
    | step step =>
      exact Session.agent_step (motive := fun agent => motive agent.sink)
        (fun hmove => hmove.sink_induction hsend) (fun _ => id) (fun _ _ _ _ _ => id) hsink step
    | join =>
      rw [Rig.step]
      split
      · change motive session.agent.join.sink
        rw [Agent.join]
        split
        · exact hshutdown hsink
        · exact hsink
      · exact hsink

end Calls

/-! ## Taking the recorder out -/

namespace Session

def forget (session : Session (Recorder σ)) : Session σ where
  agent := session.agent.forget
  owner := session.owner

theorem forget_step (session : Session (Recorder σ)) (step : SessionStep) :
    (session.step step).forget = session.forget.step step := by
  obtain ⟨agent, owner⟩ := session
  cases step with
  | work =>
    have hstep : ({ agent, owner } : Session _).forget.agent.step? = agent.step?.map Agent.forget :=
      Agent.step?_forget agent
    rw [Session.step, Session.step, hstep]
    cases agent.step? <;> rfl
  | flag => cases owner <;> rfl
  | wake => cases owner <;> rfl
  | push event => rfl
  | notify => rfl
  | stall => rfl
  | release => rfl

theorem forget_run (session : Session (Recorder σ)) (steps : List SessionStep) :
    (session.run steps).forget = session.forget.run steps := by
  induction steps generalizing session with
  | nil => rfl
  | cons step steps ih =>
    change ((session.step step).run steps).forget = (session.forget.step step).run steps
    rw [ih, forget_step]

end Session

namespace Rig

def forget : Rig (Recorder σ) → Rig σ
  | idle ring recorder => idle ring recorder.inner
  | busy session => busy session.forget

theorem forget_step (rig : Rig (Recorder σ)) (step : RigStep) :
    (rig.step step).forget = rig.forget.step step := by
  cases rig with
  | idle ring recorder =>
    cases step with
    | start config refusal =>
      have hstart := Agent.start_forget config ring recorder refusal
      rw [forget, Rig.step, Rig.step, hstart]
      cases Agent.start config ring recorder refusal <;> rfl
    | step step => cases step <;> rfl
    | join => rfl
  | busy session =>
    cases step with
    | start config refusal => rfl
    | step step => exact congrArg busy (session.forget_step step)
    | join =>
      have howner : session.forget.owner = session.owner := rfl
      have hworker : session.forget.agent.worker = session.agent.worker := rfl
      have hjoin : session.forget.agent.join = session.agent.join.forget :=
        session.agent.forget_join.symm
      rw [forget, Rig.step, Rig.step, howner, hworker, hjoin]
      split <;> rfl

theorem forget_run (rig : Rig (Recorder σ)) (steps : List RigStep) :
    (rig.run steps).forget = rig.forget.run steps := by
  induction steps generalizing rig with
  | nil => rfl
  | cons step steps ih =>
    change ((rig.step step).run steps).forget = (rig.forget.step step).run steps
    rw [ih, forget_step]

/-- The same pushes are accepted with a recorder and without. -/
theorem accepted_forget (rig : Rig (Recorder σ)) (steps : List RigStep) :
    rig.forget.accepted steps = rig.accepted steps := by
  induction steps generalizing rig with
  | nil => rfl
  | cons step steps ih =>
    have hring : rig.forget.ring = rig.ring := by cases rig <;> rfl
    have htaken : rig.forget.taken step = rig.taken step := by
      rw [taken.eq_def, taken.eq_def, hring]
    rw [accepted, accepted, htaken, ← forget_step, ih]

end Rig

end Telemetry
