import Telemetry.Proofs.Session.Teardown
import Telemetry.Sink.Faulty

/-!
# A panic of the sink

A panic unwinds the worker out of the `send` in which it happens.  The event has left the
ring and is lost; it has not been counted.  Nothing else is lost: what was sent before is
counted as it was answered, what is queued and what is pushed from then on stays for the
next session, and the agent can be stopped or given up as ever.
-/

namespace Telemetry

variable {σ : Type} [Sink σ]

namespace Agent

/-- Since the sink had got the calls `before`, a `send` has panicked. -/
def Panicked (agent : Agent (Recorder σ)) (before : List SinkCall) : Prop :=
  ∃ event, .send event .panicked ∈ agent.sink.calls.drop before.length

/-- The agent's sink had got the calls `before` when the session began, then sends that it
answered, and it panicked in the `send` of `lost`, the last call of all. -/
structure Fallen (agent : Agent (Recorder σ)) (before : List SinkCall) (answered : List Send)
    (lost : Event) (notifies : Nat) : Prop where
  worker_eq : agent.worker = .dead
  calls_eq : agent.sink.calls = before ++ answered.map Send.call ++ [.send lost .panicked]
  stats_eq : agent.stats = .tally answered notifies
  answered : AllAnswered answered

variable {agent : Agent (Recorder σ)} {before : List SinkCall} {sends : List Send}
  {notifies : Nat}

omit [Sink σ] in
/-- A panic is among the sends of the session, whether the sink has been shut down behind
them or not. -/
theorem Panicked.not_allAnswered {behind : List SinkCall} (h : agent.Panicked before)
    (hcalls : agent.sink.calls = before ++ sends.map Send.call ++ behind)
    (hbehind : ∀ event, .send event .panicked ∉ behind) : ¬ AllAnswered sends := by
  obtain ⟨event, hmem⟩ := h
  rw [hcalls, List.append_assoc, List.drop_left] at hmem
  have hsent : SinkCall.send event .panicked ∈ sends.map Send.call :=
    (List.mem_append.mp hmem).resolve_right (hbehind event)
  obtain ⟨send, hmem, hcall⟩ := List.mem_map.mp hsent
  intro hanswered
  have hpanicked := hanswered send hmem
  obtain ⟨other, answer⟩ := send
  cases hcall
  cases hpanicked

omit [Sink σ] in
theorem Closed.not_panicked (h : Closed agent before sends notifies) :
    ¬ agent.Panicked before := fun hpanicked =>
  hpanicked.not_allAnswered h.calls_eq (by simp) h.answered

omit [Sink σ] in
/-- A panic is the end of the worker. -/
theorem Ledger.fallen (h : Ledger agent before sends notifies) (hpanicked : agent.Panicked before) :
    ∃ answered lost, Fallen agent before answered lost notifies ∧
      sends = answered ++ [⟨lost, .panicked⟩] := by
  have hdead : agent.worker = .dead := by
    by_contra hdead
    have hcalls : agent.sink.calls = before ++ sends.map Send.call ++ [] := by
      rw [List.append_nil]
      exact h.calls_eq
    exact hpanicked.not_allAnswered hcalls (fun _ => List.not_mem_nil) (h.answered hdead)
  obtain ⟨answered, lost, hanswered, hsends⟩ := h.unwound hdead
  refine ⟨answered, lost, ⟨hdead, ?_, ?_, hanswered⟩, hsends⟩
  · rw [h.calls_eq, hsends, List.map_append, ← List.append_assoc]
    rfl
  · rw [h.stats_eq, hsends]
    simp [Stats.tally, Send.accepted, Send.rejected]

/-- Joining a worker that a panic has unwound does nothing. -/
theorem join_of_not_exited {agent : Agent σ} (h : agent.worker ≠ .exited) :
    agent.join = agent := by
  rw [join]
  split
  · next hexited => exact absurd hexited h
  · rfl

theorem join_of_dead {agent : Agent σ} (h : agent.worker = .dead) : agent.join = agent := by
  apply join_of_not_exited
  rw [h]
  exact Worker.noConfusion

/-- Nor is there anything to drain behind a panic. -/
theorem drop_of_dead {agent : Agent σ} (h : agent.worker = .dead) :
    ∃ running stopping pending,
      agent.drop = { agent with running, stopping, pending } := by
  by_cases hrunning : agent.running = true
  · have hrest : agent.ending.step? = none := by
      have hworker : agent.ending.worker = .dead := h
      rw [step?, hworker]
    rw [drop, teardown_of_running hrunning, settle_of_rest hrest]
    exact ⟨false, true, true, join_of_dead h⟩
  · rw [drop, teardown, if_neg hrunning]
    exact ⟨_, _, _, rfl⟩

end Agent

/-! ## The next session -/

/-- A session over this ring, with a sink that always answers, delivers what is queued in
it and what is accepted meanwhile, and shuts the sink down. -/
def EventRing.DeliversNext (ring : EventRing) : Prop :=
  ∀ {τ : Type} [Sink τ] (config : AgentConfig) (recorder : Recorder τ),
    config.validate = .ok () → AlwaysAnswers recorder.inner →
      ∃ agent, Agent.start config ring recorder = .ok agent ∧
        ∀ steps,
          let first : Session (Recorder τ) := { agent }
          let session := first.run steps
          let ended := session.agent.release.drop
          session.owner = .holding →
            ended.ring.queued = [] ∧
              ∃ sends, sends.map Send.event = ring.queued ++ first.accepted steps ∧
                ended.Closed recorder.calls sends (steps.count .notify)

theorem EventRing.deliversNext (ring : EventRing) : ring.DeliversNext := by
  intro τ _ config recorder hvalidate hsink
  obtain ⟨agent, hstart⟩ := Agent.start_of_valid hvalidate ring recorder
  refine ⟨agent, hstart, ?_⟩
  intro steps first session ended howner
  obtain ⟨-, hqueued, sends, hclosed, hsends⟩ :=
    Session.closed_of_drop hstart hsink.recorder steps howner
  exact ⟨hqueued, sends, hsends, hclosed⟩

/-! ## Sessions -/

namespace Session

theorem fallen_run {session : Session (Recorder σ)} {before : List SinkCall}
    {answered : List Send} {lost : Event} {notifies : Nat}
    (h : session.agent.Fallen before answered lost notifies) (steps : List SessionStep) :
    (session.run steps).agent.Fallen before answered lost
      (notifies + steps.count .notify) := by
  have hgone : session.Gone := .inr h.worker_eq
  have hbehind := hgone.run steps
  refine ⟨hbehind.worker_eq.trans h.worker_eq, ?_, ?_, h.answered⟩
  · rw [hbehind.sink_eq]
    exact h.calls_eq
  · rw [hbehind.stats_eq, h.stats_eq]
    exact Stats.addWakeups_tally answered notifies _

/-- An agent is running until its owner begins to end it. -/
theorem running_of_holding {agent : Agent σ} (hrunning : agent.running = true)
    (steps : List SessionStep) :
    (({ agent } : Session σ).run steps).owner = .holding →
      (({ agent } : Session σ).run steps).agent.running = true := by
  refine run_induction (motive := fun session =>
    session.owner = .holding → session.agent.running = true) ?_ (fun _ => hrunning) steps
  intro session step h
  obtain ⟨agent, owner⟩ := session
  cases step with
  | work =>
    intro howner
    rcases agent.rest_or_move with hrest | hmove
    · rw [Session.step, hrest]
      exact h howner
    · exact hmove.running_eq.trans (h howner)
  | flag =>
    cases owner with
    | holding => intro howner; cases howner
    | flagged | joining => exact h
  | wake =>
    cases owner with
    | flagged => intro howner; cases howner
    | holding | joining => exact h
  | push event => exact h
  | notify | stall | release => exact h

section Start

variable {config : AgentConfig} {ring : EventRing} {recorder : Recorder σ}
  {agent : Agent (Recorder σ)}

/-- A panic loses the event that was being sent. -/
theorem fallen_of_panicked (hstart : Agent.start config ring recorder = .ok agent)
    (steps : List SessionStep) :
    let first : Session (Recorder σ) := { agent }
    let session := first.run steps
    session.agent.Panicked recorder.calls →
      ∃ answered lost,
        session.agent.Fallen recorder.calls answered lost (steps.count .notify) ∧
        ring.queued ++ first.accepted steps =
          answered.map Send.event ++ lost :: session.agent.ring.queued := by
  intro first session hpanicked
  obtain ⟨sends, hledger, hsends⟩ := ledger_of_start hstart steps
  obtain ⟨answered, lost, hfallen, hcut⟩ := hledger.fallen hpanicked
  have hinFlight : session.agent.inFlight = [] := Gone.inFlight_eq (.inr hfallen.worker_eq)
  refine ⟨answered, lost, hfallen, ?_⟩
  rw [← hsends, hcut]
  change _ ++ session.agent.inFlight ++ session.agent.ring.queued = _
  rw [hinFlight]
  simp

/-- So does one in the last batch, while the owner waits.  The teardown is a run of the
session, and behind a panic the join adds nothing to it. -/
theorem fallen_of_drop (hstart : Agent.start config ring recorder = .ok agent)
    (steps : List SessionStep) :
    let first : Session (Recorder σ) := { agent }
    let session := first.run steps
    let ended := session.agent.release.drop
    session.owner = .holding → ended.Panicked recorder.calls →
      ∃ answered lost, ended.Fallen recorder.calls answered lost (steps.count .notify) ∧
        ring.queued ++ first.accepted steps =
          answered.map Send.event ++ lost :: ended.ring.queued := by
  intro first session ended howner hpanicked
  have hrunning : session.agent.release.running = true :=
    running_of_holding (Agent.fresh_of_start hstart).running_eq steps howner
  have hdrop : ended = session.agent.release.ending.settle.join :=
    Agent.teardown_of_running hrunning
  obtain ⟨moves, hmoves⟩ := run_ending howner
  have hrun : (first.run (steps ++ ending moves)).agent =
      session.agent.release.ending.settle := by
    rw [run_append]
    exact congrArg Session.agent hmoves
  have hworker : session.agent.release.ending.settle.worker ≠ .exited := by
    intro hexited
    obtain ⟨sends, hledger, -⟩ := ledger_of_start hstart (steps ++ ending moves)
    change (first.run (steps ++ ending moves)).agent.Ledger _ _ _ at hledger
    rw [hrun] at hledger
    rw [hdrop] at hpanicked
    exact (hledger.closed hexited).not_panicked hpanicked
  have hjoin : ended = (first.run (steps ++ ending moves)).agent := by
    rw [hdrop, hrun]
    exact Agent.join_of_not_exited hworker
  rw [hjoin] at hpanicked
  obtain ⟨answered, lost, hfallen, haccepted⟩ :=
    fallen_of_panicked hstart (steps ++ ending moves) hpanicked
  change (first.run (steps ++ ending moves)).agent.Fallen _ _ _ _ at hfallen
  change ring.queued ++ first.accepted (steps ++ ending moves) =
    _ ++ lost :: (first.run (steps ++ ending moves)).agent.ring.queued at haccepted
  rw [first.accepted_append, accepted_ending, List.append_nil, ← hjoin] at haccepted
  rw [List.count_append, count_notify_ending, Nat.add_zero, ← hjoin] at hfallen
  exact ⟨answered, lost, hfallen, haccepted⟩

/-- When a `send` panics, before its session is ended or in the last batch of the session,
the worker is gone, the event being sent is lost and not counted, and the events before it
are counted as they were answered.  The others are queued, and more can be queued behind
them; of the counters only those of the wakeups and of the refused pushes go on.  The agent
can be stopped or given up, which does not touch the sink, and the next session delivers
what is queued. -/
theorem panic_loses_one_event (hstart : Agent.start config ring recorder = .ok agent)
    (steps : List SessionStep) :
    let first : Session (Recorder σ) := { agent }
    let session := first.run steps
    let accepted := ring.queued ++ first.accepted steps
    let ended := session.agent.release.drop
    session.forget = first.forget.run steps ∧
      ended.forget = session.forget.agent.release.drop ∧
      (session.agent.Panicked recorder.calls →
        ∃ answered lost, accepted = answered.map Send.event ++ lost :: session.agent.ring.queued ∧
          ∀ later,
            let after := (session.run later).agent
            after.Fallen recorder.calls answered lost ((steps ++ later).count .notify) ∧
            after.sink = session.agent.sink ∧
            after.ring.queued = session.agent.ring.queued ++ session.accepted later ∧
            (∀ event, (after.push event).1 =
              decide (after.ring.queued.length < ring.capacity.toNat)) ∧
            after.ring.dropped =
              session.agent.ring.dropped + .ofNat (refusals (session.history later)) ∧
            after.join = after ∧ after.stop = (after.stats, after.drop) ∧
            (∃ running stopping pending,
              after.drop = { after with running, stopping, pending }) ∧
            after.ring.DeliversNext) ∧
      (session.owner = .holding → ended.Panicked recorder.calls →
        ∃ answered lost, accepted = answered.map Send.event ++ lost :: ended.ring.queued ∧
          ended.Fallen recorder.calls answered lost (steps.count .notify) ∧
          session.agent.release.stop = (ended.stats, ended) ∧
          ended.ring.DeliversNext) := by
  intro first session accepted ended
  have hfresh := Agent.fresh_of_start hstart
  refine ⟨forget_run first steps, Agent.forget_drop _, ?_, ?_⟩
  · intro hpanicked
    obtain ⟨answered, lost, hfallen, haccepted⟩ := fallen_of_panicked hstart steps hpanicked
    refine ⟨answered, lost, haccepted, ?_⟩
    intro later after
    have hgone : session.Gone := .inr hfallen.worker_eq
    have hafter := fallen_run hfallen later
    rw [← List.count_append] at hafter
    have hcapacity : after.ring.capacity = ring.capacity := by
      have hfirst : session.agent.ring.capacity = agent.ring.capacity :=
        (first.ring_counts_run steps).1
      rw [(session.ring_counts_run later).1, hfirst, hfresh.ring_eq]
    obtain ⟨running, stopping, pending, hdrop⟩ := Agent.drop_of_dead hafter.worker_eq
    refine ⟨hafter, (hgone.run later).sink_eq, hgone.queued_run later, ?_,
      (session.ring_counts_run later).2, Agent.join_of_dead hafter.worker_eq, ?_,
      ⟨running, stopping, pending, hdrop⟩, after.ring.deliversNext⟩
    · intro event
      rw [← hcapacity]
      exact after.ring.accepted_push event
    · rw [Agent.stop_eq after, hdrop]
  · intro howner hpanicked
    obtain ⟨answered, lost, hfallen, haccepted⟩ :=
      fallen_of_drop hstart steps howner hpanicked
    exact ⟨answered, lost, haccepted, hfallen, Agent.stop_eq _, ended.ring.deliversNext⟩

end Start

/-- The second `send` panics; an event is queued behind it, one more is accepted later and
fills the ring, and another is refused. -/
theorem panic_before_full_ring :
    let first : Event := .blank
    let second : Event := { Event.blank with id := 1 }
    let third : Event := { Event.blank with id := 2 }
    ∃ ring agent, EventRing.create ⟨1000, by decide⟩ 3 = .ok ring ∧
      Agent.start {} ring
        ({ inner := { inner := {}, panicAt := some 2 } } : Recorder FaultySink) = .ok agent ∧
      let session := ({ agent } : Session (Recorder FaultySink)).run
        [.push first, .push second, .push third, .notify, .work, .work, .work, .work, .work]
      let later := session.run [.push first, .push second, .notify, .push third]
      session.agent.Panicked [] ∧
        ∃ answered, answered.map Send.event = [first] ∧
          later.agent.Fallen [] answered second 2 ∧
          session.agent.ring.queued = [third] ∧
          later.agent.ring.queued = [third, first, second] ∧ later.agent.ring.dropped = 1 ∧
          later.agent.stop = (later.agent.stats, later.agent.drop) ∧
          later.agent.ring.DeliversNext := by
  intro first second third
  obtain ⟨ring, hring⟩ : ∃ ring, EventRing.create ⟨1000, by decide⟩ 3 = .ok ring := ⟨_, rfl⟩
  obtain ⟨agent, hstart⟩ : ∃ agent, Agent.start {} ring
      ({ inner := { inner := {}, panicAt := some 2 } } : Recorder FaultySink) = .ok agent :=
    ⟨_, rfl⟩
  refine ⟨ring, agent, hring, hstart, ?_⟩
  obtain ⟨-, -, hfallen, -⟩ := panic_loses_one_event hstart
    [.push first, .push second, .push third, .notify, .work, .work, .work, .work, .work]
  rw [(EventRing.queued_of_create hring).1] at hfallen
  cases hring
  cases hstart
  subst first second third
  intro session later
  have hcalls : session.agent.sink.calls =
      [.send .blank .accepted] ++ [.send { Event.blank with id := 1 } .panicked] := by
    subst session
    decide +kernel
  have hpanicked : session.agent.Panicked [] := by
    refine ⟨{ Event.blank with id := 1 }, ?_⟩
    rw [hcalls]
    exact .tail _ (.head _)
  obtain ⟨answered, lost, haccepted, hlater⟩ := hfallen hpanicked
  obtain ⟨hafter, hsink, hqueued, -, hdropped, -, hstop, -, hnext⟩ :=
    hlater [.push .blank, .push { Event.blank with id := 1 }, .notify,
      .push { Event.blank with id := 2 }]
  have hrecord := hafter.calls_eq
  rw [hsink] at hrecord
  obtain ⟨hmap, hlost⟩ := List.append_inj' (hcalls.symm.trans hrecord) rfl
  cases hlost
  have hevents : answered.map Send.event = [.blank] := by
    rw [← filterMap_event?_call, ← List.nil_append (answered.map _), ← hmap]
    rfl
  have hpushes := haccepted.symm.trans (by decide +kernel :
    _ = [Event.blank, { Event.blank with id := 1 }, { Event.blank with id := 2 }])
  rw [hevents] at hpushes
  have hleft : session.agent.ring.queued = [{ Event.blank with id := 2 }] :=
    (List.cons.inj (List.cons.inj hpushes).2).2
  rw [hleft] at hqueued
  refine ⟨hpanicked, answered, hevents, hafter, hleft, ?_, ?_, hstop, hnext⟩
  · subst session
    exact hqueued.trans (by decide +kernel)
  · subst session
    exact hdropped.trans (by decide +kernel)

end Session

end Telemetry
