import Telemetry.Proofs.Session.Ending
import Telemetry.Sink.Counting

/-!
# Wakeups

The pending flag is consumed before the ring is drained and may be set again at
any moment of the drain.  A worker goes to sleep only behind a look at the empty
ring, so whatever was queued at a `notify` has been taken by the next time that
the worker sleeps with nothing pending.  The stop flag is stored before its
wakeup, so that a worker awake to see the one cannot miss the other.
-/

namespace Telemetry

variable {σ : Type} [Sink σ]

/-! ## A wakeup is not lost -/

namespace Agent

/-- Of the events accepted so far, the first `seen` keep the worker awake: it
sleeps, or is about to, only with a wakeup pending or after it has taken them. -/
structure Awake (agent : Agent (Recorder σ)) (seen : Nat) : Prop where
  seen_le : seen ≤ (agent.handed ++ agent.ring.queued).length
  waiting : agent.worker = .waiting → agent.pending = true ∨ seen ≤ agent.handed.length
  emptied : agent.worker = .checking true → agent.pending = true ∨ seen ≤ agent.handed.length

variable {agent after : Agent (Recorder σ)} {seen : Nat}

/-- A batch that sees the ring empty has handed over all that was accepted, so the
worker may go to sleep behind it. -/
theorem Move.awake (h : Move agent after) (hawake : Awake agent seen) : Awake after seen where
  seen_le := by
    rw [h.handed_append_queued]
    exact hawake.seen_le
  waiting := by
    cases h with
    | sleep hworker hstopping =>
      intro _
      have hhanded : ({ agent with worker := .waiting } : Agent (Recorder σ)).handed =
          agent.handed := by
        simp only [handed, inFlight, hworker]
      rw [hhanded]
      exact hawake.emptied hworker
    | _ => intro hwaiting; cases hwaiting
  emptied := by
    cases h with
    | emptied room hworker hpop =>
      intro _
      right
      have hhanded : ({ agent with worker := .checking true } : Agent (Recorder σ)).handed =
          agent.handed := by
        simp only [handed, inFlight, hworker]
      have hle := hawake.seen_le
      rw [(EventRing.pop?_eq_none_iff _).mp hpop, List.append_nil] at hle
      rw [hhanded]
      exact hle
    | _ => intro hemptied; cases hemptied

omit [Sink σ] in
/-- A pending wakeup stands for all that is queued. -/
theorem awake_of_pending (hpending : agent.pending = true) :
    Awake agent (agent.handed ++ agent.ring.queued).length where
  seen_le := le_rfl
  waiting _ := .inl hpending
  emptied _ := .inl hpending

end Agent

namespace Session

theorem awake_step {session : Session (Recorder σ)} {seen : Nat}
    (h : session.agent.Awake seen) (step : SessionStep) :
    (session.step step).agent.Awake seen := by
  obtain ⟨agent, owner⟩ := session
  have hle : seen ≤ (agent.handed ++ agent.ring.queued).length := h.seen_le
  cases step with
  | push event =>
    refine { h with seen_le := ?_ }
    rw [handed_append_queued_step, List.length_append]
    exact Nat.le_add_right_of_le hle
  | notify => exact { seen_le := hle, waiting _ := .inl rfl, emptied _ := .inl rfl }
  | work =>
    change (agent.step?.getD agent).Awake seen
    rcases agent.rest_or_move with hrest | hmove
    · rwa [hrest]
    · exact hmove.awake h
  | stall => exact { h with }
  | release => exact { h with }
  | flag =>
    cases owner with
    | holding => exact { h with }
    | flagged => exact h
    | joining => exact h
  | wake =>
    cases owner with
    | holding => exact h
    | flagged => exact { seen_le := hle, waiting _ := .inl rfl, emptied _ := .inl rfl }
    | joining => exact h

/-- Behind a `notify`, a worker that sleeps with no wakeup pending has taken all
that was queued then. -/
theorem taken_of_waiting (session : Session (Recorder σ)) (steps : List SessionStep)
    (hpending : session.agent.pending = true)
    (hwaiting : (session.run steps).agent.worker = .waiting)
    (hidle : (session.run steps).agent.pending = false) :
    ∃ taken,
      (session.run steps).agent.handed =
        session.agent.handed ++ session.agent.ring.queued ++ taken ∧
      session.accepted steps = taken ++ (session.run steps).agent.ring.queued := by
  have hawake : (session.run steps).agent.Awake
      (session.agent.handed ++ session.agent.ring.queued).length :=
    run_induction (motive := fun session => session.agent.Awake _)
      (fun step h => awake_step h step) (Agent.awake_of_pending hpending) steps
  apply session.taken_of_length_le steps
  rcases hawake.waiting hwaiting with hset | hlength
  · rw [hidle] at hset
    cases hset
  · exact hlength

/-! ## The stop is not missed -/

/-- How far the end of a session has come, as the worker can see it. -/
structure Flagged (session : Session σ) : Prop where
  stopping_eq : session.owner ≠ .holding → session.agent.stopping = true
  woken : session.owner = .joining → session.agent.worker = .waiting →
    session.agent.pending = true

omit [Sink σ] in
theorem Flagged.stopping_of_joining {session : Session σ} (h : session.Flagged)
    (howner : session.owner = .joining) : session.agent.stopping = true := by
  apply h.stopping_eq
  rw [howner]
  exact Owner.noConfusion

theorem Flagged.step {session : Session σ} (h : session.Flagged) (step : SessionStep) :
    (session.step step).Flagged := by
  obtain ⟨agent, owner⟩ := session
  cases step with
  | work =>
    rw [Session.step]
    rcases agent.rest_or_move with hrest | hmove
    · rwa [hrest]
    · refine ⟨fun howner => hmove.stopping_eq.trans (h.stopping_eq howner), ?_⟩
      intro howner hwaiting
      exact absurd hwaiting (hmove.not_waiting (h.stopping_of_joining howner))
  | flag =>
    cases owner with
    | holding => exact ⟨fun _ => rfl, fun howner => by cases howner⟩
    | flagged => exact h
    | joining => exact h
  | wake =>
    cases owner with
    | holding => exact h
    | flagged => exact ⟨fun _ => h.stopping_eq Owner.noConfusion, fun _ _ => rfl⟩
    | joining => exact h
  | notify => exact ⟨h.stopping_eq, fun _ _ => rfl⟩
  | push event => exact ⟨h.stopping_eq, h.woken⟩
  | stall => exact ⟨h.stopping_eq, h.woken⟩
  | release => exact ⟨h.stopping_eq, h.woken⟩

theorem not_dead_step {session : Session σ} (hsink : NeverPanics σ)
    (h : session.agent.worker ≠ .dead) (step : SessionStep) :
    (session.step step).agent.worker ≠ .dead :=
  (alwaysAnswers_step (hsink.alwaysAnswers _) h step).2

/-- Once the wakeup of the stop has been given, the worker's own steps are enough
for it to be gone. -/
theorem Flagged.exits_or_dies {session : Session σ} (h : session.Flagged)
    (howner : session.owner = .joining) :
    session.agent.release.settle.worker = .exited ∨
      session.agent.release.settle.worker = .dead := by
  by_cases hgone : session.agent.worker = .exited ∨ session.agent.worker = .dead
  · have hrest : session.agent.release.step? = none := by
      rcases hgone with hworker | hworker <;> simp [Agent.step?, Agent.release, hworker]
    rw [Agent.settle_of_rest hrest]
    exact hgone
  · obtain ⟨hexited, hdead⟩ := not_or.mp hgone
    have hending : session.agent.release.Ending :=
      { stopping_eq := h.stopping_of_joining howner
        stalled_eq := rfl
        not_dead := hdead
        woken := h.woken howner
        drained := fun hworker => absurd hworker hexited }
    exact hending.settle_or_dead.imp_left And.left

/-- It returns if the sink always answers. -/
theorem Flagged.exits {session : Session σ} (hsink : NeverPanics σ) (h : session.Flagged)
    (howner : session.owner = .joining) (hdead : session.agent.worker ≠ .dead) :
    session.agent.release.settle.worker = .exited :=
  (h.exits_or_dies howner).resolve_right
    (Agent.settle_not_dead (hsink.alwaysAnswers _) hdead)

theorem flagged_run (agent : Agent σ) (steps : List SessionStep) :
    (({ agent } : Session σ).run steps).Flagged :=
  run_induction (fun step h => h.step step)
    ⟨fun howner => absurd rfl howner, fun howner => by cases howner⟩ steps

/-! ## Every order of steps -/

/-- Where the worker sleeps with no wakeup pending, every event accepted before
any `notify` has been handed over, and what is queued was accepted after it.  An
owner that waits for the worker never waits for one that sleeps so, and the
worker returns on its own if the sink always answers. -/
theorem no_wakeup_lost {config : AgentConfig} {ring : EventRing} {sink : σ}
    {agent : Agent (Recorder σ)}
    (hstart : Agent.start config ring { inner := sink } = .ok agent)
    (steps : List SessionStep) :
    let session : Session (Recorder σ) := { agent }
    let final := session.run steps
    final.forget = session.forget.run steps ∧
      (final.agent.worker = .waiting → final.agent.pending = false →
        ∀ before behind, steps = before ++ .notify :: behind →
          let notified := session.run before
          ∃ taken,
            final.agent.handed =
              notified.agent.handed ++ notified.agent.ring.queued ++ taken ∧
            (notified.step .notify).accepted behind = taken ++ final.agent.ring.queued) ∧
      ¬ (final.owner = .joining ∧ final.agent.worker = .waiting ∧
        final.agent.pending = false) ∧
      (NeverPanics σ → final.owner = .joining →
        final.agent.release.settle.worker = .exited) := by
  intro session final
  have hfresh := Agent.fresh_of_start hstart
  have hflagged : final.Flagged := by
    have hholding : session.Flagged :=
      ⟨fun howner => absurd rfl howner, fun howner => by cases howner⟩
    exact run_induction (fun step h => h.step step) hholding steps
  refine ⟨forget_run session steps, ?_, ?_, ?_⟩
  · intro hwaiting hidle before behind hsteps notified
    have hrun : final = (notified.step .notify).run behind := by
      change session.run steps = _
      rw [hsteps, run, List.foldl_append]
      rfl
    rw [hrun] at hwaiting hidle ⊢
    exact taken_of_waiting (notified.step .notify) behind rfl hwaiting hidle
  · rintro ⟨howner, hwaiting, hidle⟩
    have hset := hflagged.woken howner hwaiting
    rw [hidle] at hset
    cases hset
  · intro hsink howner
    have hfirst : session.agent.worker ≠ .dead := by
      rw [hfresh.worker_eq]
      exact Worker.noConfusion
    have hfinal : final.agent.worker ≠ .dead :=
      run_induction (motive := fun session => session.agent.worker ≠ .dead)
        (fun step h => not_dead_step hsink.recorder h step) hfirst steps
    exact hflagged.exits hsink.recorder howner hfinal

/-- The worker takes an event and sees the ring empty; another one comes before it
sleeps. -/
theorem queued_behind_wakeup :
    let first : Event := .blank
    let second : Event := { Event.blank with id := 1 }
    ∃ ring agent, EventRing.create ⟨1000, by decide⟩ 1 = .ok ring ∧
      Agent.start {} ring ({ inner := {} } : Recorder CountingSink) = .ok agent ∧
      let behind := [.work, .work, .work, .work, .push second, .work]
      let final := ({ agent } : Session (Recorder CountingSink)).run
        ([.push first] ++ .notify :: behind)
      final.agent.worker = .waiting ∧ final.agent.pending = false ∧
        final.agent.handed = [first] ∧ final.agent.ring.queued = [second] := by
  intro first second
  obtain ⟨ring, hring⟩ : ∃ ring, EventRing.create ⟨1000, by decide⟩ 1 = .ok ring := ⟨_, rfl⟩
  obtain ⟨agent, hstart⟩ : ∃ agent, Agent.start {} ring
      ({ inner := {} } : Recorder CountingSink) = .ok agent := ⟨_, rfl⟩
  refine ⟨ring, agent, hring, hstart, ?_⟩
  intro behind final
  obtain ⟨-, hnotified, -⟩ := no_wakeup_lost hstart ([.push first] ++ .notify :: behind)
  have hempty : ring.queued = [] := (EventRing.queued_of_create hring).1
  have hbalance := handed_append_queued_run { agent } [.push first]
  cases hring
  cases hstart
  obtain ⟨hwaiting, hidle, hfinal⟩ : final.agent.worker = .waiting ∧
      final.agent.pending = false ∧ final.agent.handed = [first] := by
    subst final behind first second
    decide +kernel
  obtain ⟨taken, hhanded, hqueued⟩ := hnotified hwaiting hidle [.push first] behind rfl
  change _ = [] ++ _ ++ [first] at hbalance
  change [second] = _ at hqueued
  rw [hempty] at hbalance
  rw [hbalance, hfinal] at hhanded
  have htaken : taken = [] := by simpa using hhanded
  rw [htaken, List.nil_append] at hqueued
  exact ⟨hwaiting, hidle, hfinal, hqueued.symm⟩

end Session

end Telemetry
