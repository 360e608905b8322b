import Telemetry.Proofs.Session.Run

/-!
# No event is lost

At every point of every run, the events handed to the sink so far and behind
them the events still queued are exactly the accepted ones, in the order of
their pushes.  An event whose `send` has not returned counts as handed over: it
has left the ring and is not offered again, whatever the sink answers.
-/

namespace Telemetry

variable {σ : Type} [Sink σ]

/-! ## The worker -/

namespace Agent

/-- The event whose `send` has not returned. -/
def inFlight (agent : Agent σ) : List Event :=
  match agent.worker with
  | .sending event _ => [event]
  | _ => []

/-- The events handed to the sink so far. -/
def handed (agent : Agent (Recorder σ)) : List Event := agent.sink.handed ++ agent.inFlight

variable {agent after : Agent (Recorder σ)}

/-- A move takes an event from the front of the queue to the end of what was
handed over, or neither changes. -/
theorem Move.handed_append_queued (h : Move agent after) :
    after.handed ++ after.ring.queued = agent.handed ++ agent.ring.queued := by
  cases h with
  | take room event ring hworker hroom hpop =>
    obtain ⟨hqueued, -⟩ := EventRing.queued_of_pop? hpop
    simp [handed, inFlight, hworker, hqueued]
  | sent event room sink hworker hstalled hsend =>
    simp [handed, inFlight, hworker, Recorder.handed_of_send hsend]
  | rejected event room error sink hworker hstalled hsend =>
    simp [handed, inFlight, hworker, Recorder.handed_of_send hsend]
  | panicked event room sink hworker hstalled hsend =>
    simp [handed, inFlight, hworker, Recorder.handed_of_send hsend]
  | wake hworker => simp [handed, inFlight, hworker]
  | full hworker => simp [handed, inFlight, hworker]
  | emptied room hworker => simp [handed, inFlight, hworker]
  | exit hworker => simp [handed, inFlight, hworker]
  | stop emptied hworker => simp [handed, inFlight, hworker]
  | again hworker => simp [handed, inFlight, hworker]
  | sleep hworker => simp [handed, inFlight, hworker]

/-- Joining a worker that is gone hands nothing over. -/
theorem handed_join (hworker : agent.worker = .exited ∨ agent.worker = .dead) :
    agent.join.ring = agent.ring ∧ agent.join.sink.handed = agent.handed := by
  rcases hworker with hworker | hworker <;>
    simp [join, handed, inFlight, hworker]

end Agent

/-! ## Sessions -/

namespace Session

theorem handed_append_queued_step (session : Session (Recorder σ)) (step : SessionStep) :
    (session.step step).agent.handed ++ (session.step step).agent.ring.queued =
      session.agent.handed ++ session.agent.ring.queued ++ session.taken step := by
  cases step with
  | push event =>
    change session.agent.handed ++ (session.agent.ring.push event).2.queued = _
    rw [EventRing.queued_push, List.append_assoc]
    rfl
  | work =>
    change _ = _ ++ []
    rw [List.append_nil, Session.step]
    rcases session.agent.rest_or_move with hrest | hmove
    · rw [hrest]
    · exact hmove.handed_append_queued
  | flag =>
    change _ = _ ++ []
    rw [List.append_nil, Session.step]
    cases session.owner <;> rfl
  | wake =>
    change _ = _ ++ []
    rw [List.append_nil, Session.step]
    cases session.owner <;> rfl
  | notify => exact (List.append_nil _).symm
  | stall => exact (List.append_nil _).symm
  | release => exact (List.append_nil _).symm

theorem handed_append_queued_run (session : Session (Recorder σ)) (steps : List SessionStep) :
    (session.run steps).agent.handed ++ (session.run steps).agent.ring.queued =
      session.agent.handed ++ session.agent.ring.queued ++ session.accepted steps := by
  induction steps generalizing session with
  | nil => simp [run, accepted]
  | cons step steps ih =>
    change ((session.step step).run steps).agent.handed ++ _ = _
    rw [accepted, ← List.append_assoc, ← handed_append_queued_step]
    exact ih (session.step step)

/-- Once as many events have been handed over as there were, all that were there have
been, and what is queued was accepted behind them: both lists begin that of all accepted
events, and the first is not the longer. -/
theorem taken_of_length_le (session : Session (Recorder σ)) (steps : List SessionStep)
    (hlength : (session.agent.handed ++ session.agent.ring.queued).length ≤
      (session.run steps).agent.handed.length) :
    ∃ taken,
      (session.run steps).agent.handed =
        session.agent.handed ++ session.agent.ring.queued ++ taken ∧
      session.accepted steps = taken ++ (session.run steps).agent.ring.queued := by
  have hbalance := session.handed_append_queued_run steps
  have hbefore : session.agent.handed ++ session.agent.ring.queued <+:
      session.agent.handed ++ session.agent.ring.queued ++ session.accepted steps :=
    List.prefix_append _ _
  have hafter : (session.run steps).agent.handed <+:
      session.agent.handed ++ session.agent.ring.queued ++ session.accepted steps := by
    rw [← hbalance]
    exact List.prefix_append _ _
  obtain ⟨taken, htaken⟩ := List.prefix_of_prefix_length_le hbefore hafter hlength
  refine ⟨taken, htaken.symm, ?_⟩
  rw [← htaken, List.append_assoc] at hbalance
  exact (List.append_cancel_left hbalance).symm

end Session

/-! ## Rigs -/

namespace Rig

/-- The events handed to the sink so far, over all sessions. -/
def handed : Rig (Recorder σ) → List Event
  | idle _ recorder => recorder.handed
  | busy session => session.agent.handed

theorem handed_append_queued_step (rig : Rig (Recorder σ)) (step : RigStep) :
    (rig.step step).handed ++ (rig.step step).ring.queued =
      rig.handed ++ rig.ring.queued ++ rig.taken step := by
  cases rig with
  | idle ring recorder =>
    cases step with
    | start config refusal =>
      change _ = _ ++ []
      rw [List.append_nil, Rig.step]
      cases hstart : Agent.start config ring recorder refusal with
      | error error => rfl
      | ok agent =>
        have hfresh := Agent.fresh_of_start hstart
        simp [handed, Rig.ring, Agent.handed, Agent.inFlight, hfresh.ring_eq, hfresh.sink_eq,
          hfresh.worker_eq]
    | step step =>
      cases step with
      | push event =>
        change recorder.handed ++ (ring.push event).2.queued = _
        rw [EventRing.queued_push, ← List.append_assoc]
        rfl
      | _ => exact (List.append_nil _).symm
    | join => exact (List.append_nil _).symm
  | busy session =>
    cases step with
    | start config refusal => exact (List.append_nil _).symm
    | step step =>
      have htaken : (busy session).taken (.step step) = session.taken step := by
        cases step <;> rfl
      rw [htaken]
      exact session.handed_append_queued_step step
    | join =>
      change _ = _ ++ []
      rw [List.append_nil, Rig.step]
      split
      · next hended =>
        simp [handed, Rig.ring, Agent.handed_join hended.2]
      · rfl

/-- Over a whole run nothing is lost, doubled or reordered. -/
theorem handed_append_queued_run (rig : Rig (Recorder σ)) (steps : List RigStep) :
    (rig.run steps).handed ++ (rig.run steps).ring.queued =
      rig.handed ++ rig.ring.queued ++ rig.accepted steps := by
  induction steps generalizing rig with
  | nil => simp [run, accepted]
  | cons step steps ih =>
    change ((rig.step step).run steps).handed ++ _ = _
    rw [accepted, ← List.append_assoc, ← handed_append_queued_step]
    exact ih (rig.step step)

end Rig

end Telemetry
