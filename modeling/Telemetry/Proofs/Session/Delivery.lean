import Telemetry.Proofs.Sink.Counting

/-!
# Delivery

Runs of sessions over one ring and one sink, put together.  At every point the
sink has got the oldest of the accepted events and the ring holds the others; a
refused configuration changes nothing; and a session that its owner ends, by
stopping the agent or by giving it up, delivers all that is left, whichever
session accepted it.
-/

namespace Telemetry

variable {σ : Type} [Sink σ]

/-! ## Sessions that nobody has begun to end -/

namespace Agent

/-- What holds of an agent as long as its owner keeps it and every `send`
returns. -/
structure Held (agent : Agent σ) : Prop where
  running_eq : agent.running = true
  stopping_eq : agent.stopping = false
  not_last : ¬ agent.worker.isLast
  not_dead : agent.worker ≠ .dead

variable {agent after : Agent σ}

theorem Move.held_of_not_dead (h : Move agent after) (hheld : Held agent)
    (hdead : after.worker ≠ .dead) : Held after where
  running_eq := h.running_eq.trans hheld.running_eq
  stopping_eq := h.stopping_eq.trans hheld.stopping_eq
  not_last := h.not_isLast hheld.stopping_eq hheld.not_last
  not_dead := hdead

theorem Move.held (hsink : NeverPanics σ) (h : Move agent after) (hheld : Held agent) :
    Held after :=
  h.held_of_not_dead hheld (h.not_dead hsink hheld.not_dead)

omit [Sink σ] in
theorem Fresh.held {ring : EventRing} {sink : σ} (h : Fresh agent ring sink) : Held agent where
  running_eq := h.running_eq
  stopping_eq := h.stopping_eq
  not_last := by
    rw [h.worker_eq]
    exact id
  not_dead := by
    rw [h.worker_eq]
    exact Worker.noConfusion

omit [Sink σ] in
theorem Held.not_exited (h : Held agent) : agent.worker ≠ .exited := by
  intro hworker
  apply h.not_last
  rw [hworker]
  trivial

omit [Sink σ] in
/-- Once no `send` is held up any longer, a held agent can be ended. -/
theorem Held.ending (h : Held agent) : Ending agent.release.ending :=
  have hstalled : agent.release.stalled = false := rfl
  ending_ending hstalled h.not_dead h.not_exited

theorem Held.drop_eq (h : Held agent) : agent.release.drop = agent.release.ending.settle.join :=
  teardown_of_running h.running_eq

end Agent

/-- An agent is held until its owner stores the stop flag. -/
def Session.HeldByOwner (session : Session σ) : Prop :=
  session.owner = .holding → session.agent.Held

namespace Session

theorem held_step {session : Session σ}
    (h : session.owner = .holding → session.agent.worker ≠ .dead → session.agent.Held)
    (step : SessionStep) :
    (session.step step).owner = .holding → (session.step step).agent.worker ≠ .dead →
      (session.step step).agent.Held := by
  obtain ⟨agent, owner⟩ := session
  cases step with
  | work =>
    intro howner
    change (agent.step?.getD agent).worker ≠ .dead → (agent.step?.getD agent).Held
    rcases agent.rest_or_move with hrest | hmove
    · rw [hrest]
      exact h howner
    · exact hmove.held_of_not_dead (h howner fun hdead => hmove.not_gone (.inr hdead))
  | flag =>
    cases owner with
    | holding => intro howner; cases howner
    | flagged => exact h
    | joining => exact h
  | wake =>
    cases owner with
    | holding => exact h
    | flagged => intro howner; cases howner
    | joining => exact h
  | push event => exact fun howner hdead => { h howner hdead with }
  | notify => exact fun howner hdead => { h howner hdead with }
  | stall => exact fun howner hdead => { h howner hdead with }
  | release => exact fun howner hdead => { h howner hdead with }

/-- Only a panic takes an agent out of the hands of its owner. -/
theorem held_of_start {config : AgentConfig} {ring : EventRing} {sink : σ} {agent : Agent σ}
    (hstart : Agent.start config ring sink = .ok agent) (steps : List SessionStep)
    (howner : (({ agent } : Session σ).run steps).owner = .holding)
    (hdead : (({ agent } : Session σ).run steps).agent.worker ≠ .dead) :
    (({ agent } : Session σ).run steps).agent.Held :=
  run_induction (motive := fun session =>
      session.owner = .holding → session.agent.worker ≠ .dead → session.agent.Held)
    (fun step h => held_step h step) (fun _ _ => (Agent.fresh_of_start hstart).held) steps
    howner hdead

/-- An owner that has begun to end a session goes on with it. -/
theorem holding_of_step {session : Session σ} {step : SessionStep}
    (h : (session.step step).owner = .holding) : session.owner = .holding := by
  obtain ⟨agent, owner⟩ := session
  cases owner with
  | holding => rfl
  | flagged => cases step <;> cases h
  | joining => cases step <;> cases h

end Session

theorem Session.HeldByOwner.step {session : Session σ} (hsink : NeverPanics σ)
    (h : session.HeldByOwner) (step : SessionStep) : (session.step step).HeldByOwner := by
  intro howner
  have hheld : session.agent.Held := h (holding_of_step howner)
  exact held_step (fun howner _ => h howner) step howner
    (alwaysAnswers_step (hsink.alwaysAnswers _) hheld.not_dead step).2

namespace Rig

def HeldByOwner : Rig σ → Prop
  | idle _ _ => True
  | busy session => session.HeldByOwner

theorem HeldByOwner.step {rig : Rig σ} (hsink : NeverPanics σ) (h : rig.HeldByOwner)
    (step : RigStep) : (rig.step step).HeldByOwner := by
  cases rig with
  | idle ring sink =>
    cases step with
    | start config refusal =>
      rw [Rig.step]
      cases hstart : Agent.start config ring sink refusal with
      | error error => trivial
      | ok agent => exact fun _ => (Agent.fresh_of_start hstart).held
    | step step => cases step <;> trivial
    | join => trivial
  | busy session =>
    cases step with
    | start config refusal => exact h
    | step step => exact Session.HeldByOwner.step hsink h step
    | join =>
      rw [Rig.step]
      split
      · trivial
      · exact h

/-! ## Ending a session step by step -/

/-- The owner ends the session: no `send` is held up any longer, the stop flag
and the wakeup are given, and the worker takes `moves` steps before the join. -/
def closing (moves : Nat) : List RigStep :=
  [.step .release, .step .flag, .step .wake] ++ List.replicate moves (.step .work) ++ [.join]

theorem closing_eq (moves : Nat) : closing moves = (Session.ending moves).map .step ++ [.join] := by
  rw [closing, Session.ending, List.map_append, List.map_replicate]
  rfl

theorem run_work (agent : Agent σ) (owner : Owner) :
    ∃ moves, (busy { agent, owner }).run (List.replicate moves (.step .work)) =
      busy { agent := agent.settle, owner } := by
  obtain ⟨moves, hmoves⟩ := Session.run_work agent owner
  refine ⟨moves, ?_⟩
  rw [← List.map_replicate, run_map_step, hmoves]

/-- Step by step the owner gets what the agent's own teardown gives. -/
theorem run_closing {session : Session σ} (howner : session.owner = .holding)
    (hrunning : session.agent.running = true)
    (hexited : session.agent.release.ending.settle.worker = .exited) :
    ∃ moves, (busy session).run (closing moves) =
      idle session.agent.release.drop.ring session.agent.release.drop.sink := by
  obtain ⟨moves, hmoves⟩ := Session.run_ending howner
  have hdrop : session.agent.release.drop = session.agent.release.ending.settle.join :=
    Agent.teardown_of_running hrunning
  refine ⟨moves, ?_⟩
  calc (busy session).run (closing moves)
      = ((busy session).run ((Session.ending moves).map .step)).step .join := by
        rw [closing_eq, run, List.foldl_append]
        rfl
    _ = (busy { agent := session.agent.release.ending.settle, owner := .joining }).step .join := by
        rw [run_map_step, hmoves]
    _ = idle session.agent.release.drop.ring session.agent.release.drop.sink := by
        rw [Rig.step, if_pos ⟨rfl, Or.inl hexited⟩, hdrop]

/-! ## Every accepted event, once and in order -/

/-- What the end of a held session leaves, once no `send` is held up. -/
theorem ended_of_held {session : Session (Recorder σ)} (hsink : NeverPanics σ)
    (howner : session.owner = .holding) (hheld : session.agent.Held) :
    let ended := session.agent.release.drop
    ended.ring.queued = [] ∧
      ended.sink.handed = session.agent.handed ++ session.agent.ring.queued ∧
      ∃ moves, (busy session).run (closing moves) = idle ended.ring ended.sink := by
  intro ended
  have hexited : session.agent.release.worker ≠ .exited := hheld.not_exited
  have hrunning : session.agent.release.running = true := hheld.running_eq
  have hstalled : session.agent.release.stalled = false := rfl
  obtain ⟨hqueued, hhanded⟩ :=
    Agent.drop_delivers hsink hrunning hstalled hheld.not_dead hexited
  exact ⟨hqueued, hhanded, run_closing howner hrunning (hheld.ending.settle hsink.recorder).1⟩

/-- Over every run of sessions, what the sink got and what is still queued are the
accepted events.  A configuration that does not validate starts nothing and changes
nothing, nor does one for which the system has no thread; any other starts a session
over what was left; and the end of a session delivers all of it, if the sink always
answers. -/
theorem accepted_eq_handed_append_queued {memory : Memory} {capacity : UInt64}
    {ring : EventRing} (h : EventRing.create memory capacity = .ok ring) (sink : σ)
    (steps : List RigStep) :
    let rig := (idle ring ({ inner := sink } : Recorder σ)).run steps
    let accepted := (idle ring sink).accepted steps
    rig.forget = (idle ring sink).run steps ∧
      accepted = rig.handed ++ rig.ring.queued ∧
      (∀ ring recorder (config : AgentConfig) (refusal : Option String),
        rig = idle ring recorder →
        match config.validate, refusal with
        | .error fault, _ =>
          Agent.start config ring recorder refusal = .error (.invalidArgument fault) ∧
            rig.step (.start config refusal) = rig
        | .ok (), some reason =>
          Agent.start config ring recorder refusal =
              .error (.workerCreation ("worker thread '" ++ config.threadName ++ "'") reason) ∧
            rig.step (.start config refusal) = rig
        | .ok (), none =>
          ∃ agent, rig.step (.start config refusal) = busy { agent } ∧
            agent.ring = ring ∧ agent.sink = recorder) ∧
      (NeverPanics σ → ∀ session, rig = busy session → session.owner = .holding →
        let ended := session.agent.release.drop
        session.agent.release.stop = (ended.stats, ended) ∧
          ended.ring.queued = [] ∧ ended.sink.handed = accepted ∧
          ∃ moves, rig.run (closing moves) = idle ended.ring ended.sink) := by
  intro rig accepted
  have haccepted : accepted = rig.handed ++ rig.ring.queued := by
    have hbalance := handed_append_queued_run (idle ring ({ inner := sink } : Recorder σ)) steps
    have hempty : ring.queued = [] := (EventRing.queued_of_create h).1
    rw [hbalance, ← accepted_forget]
    change _ = [] ++ ring.queued ++ accepted
    rw [hempty]
    rfl
  refine ⟨forget_run _ steps, haccepted, ?_, ?_⟩
  · intro ring recorder config refusal hidle
    rw [hidle]
    cases hvalidate : config.validate with
    | error fault =>
      have hstart := Agent.start_of_invalid hvalidate ring recorder refusal
      refine ⟨hstart, ?_⟩
      rw [Rig.step, hstart]
    | ok =>
      cases refusal with
      | some reason =>
        have hstart := Agent.start_of_refused hvalidate ring recorder reason
        refine ⟨hstart, ?_⟩
        rw [Rig.step, hstart]
      | none =>
        obtain ⟨agent, hstart⟩ := Agent.start_of_valid hvalidate ring recorder
        have hfresh := Agent.fresh_of_start hstart
        refine ⟨agent, ?_, hfresh.ring_eq, hfresh.sink_eq⟩
        rw [Rig.step, hstart]
  · intro hsink session hbusy howner
    have hidle : (idle ring ({ inner := sink } : Recorder σ)).HeldByOwner := trivial
    have hheld : rig.HeldByOwner :=
      run_induction (fun step h => h.step hsink.recorder step) hidle steps
    rw [hbusy] at hheld haccepted ⊢
    obtain ⟨hqueued, hhanded, hclosing⟩ := ended_of_held hsink howner (hheld howner)
    exact ⟨Agent.stop_eq _, hqueued, hhanded.trans haccepted.symm, hclosing⟩

/-- A refused configuration, a refused thread, a batch bound of one and a sink that rejects
every second event. -/
theorem delivered_over_refused_start :
    let first : Event := .blank
    let second : Event := { Event.blank with id := 1 }
    ∃ ring, EventRing.create ⟨1000, by decide⟩ 1 = .ok ring ∧
      let steps :=
        [.step (.push first), .step (.push second), .start { maxDrainPerWake := 0 },
          .start {} (some "out of threads"), .start { maxDrainPerWake := 1 }, .step .notify,
          .step .work, .step .work, .step .stall, .step (.push second)]
      let rig := (idle ring ({ inner := { failEvery := 2 } } : Recorder CountingSink)).run steps
      rig.handed = [first] ∧ rig.ring.queued = [second] ∧
        ∃ moves ring recorder, rig.run (closing moves) = idle ring recorder ∧
          ring.queued = [] ∧ recorder.handed = [first, second] := by
  intro first second
  obtain ⟨ring, hring⟩ : ∃ ring, EventRing.create ⟨1000, by decide⟩ 1 = .ok ring := ⟨_, rfl⟩
  refine ⟨ring, hring, ?_⟩
  intro steps rig
  obtain ⟨-, haccepted, -, hends⟩ :=
    accepted_eq_handed_append_queued hring ({ failEvery := 2 } : CountingSink) steps
  cases hring
  have hhanded : rig.handed = [first] := rfl
  have hpushes : [first, second] = rig.handed ++ rig.ring.queued := haccepted
  have hqueued : rig.ring.queued = [second] := by
    rw [hhanded] at hpushes
    rw [List.singleton_append, List.cons.injEq] at hpushes
    exact hpushes.2.symm
  obtain ⟨session, hbusy, howner⟩ :
      ∃ session, rig = busy session ∧ session.owner = .holding := ⟨_, rfl, rfl⟩
  obtain ⟨-, hnone, hall, moves, hclosing⟩ := hends CountingSink.neverPanics session hbusy howner
  refine ⟨hhanded, hqueued, moves, _, _, hclosing, hnone, ?_⟩
  rw [hall, haccepted]
  exact hpushes.symm

end Rig

end Telemetry
