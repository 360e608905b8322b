import Telemetry.Proofs.Session.Conservation

/-!
# The end of a session

Stopping and giving up an agent are one teardown, and the teardown is a run of
steps: the stop flag, the wakeup, as many steps of the worker as it takes, and
the join.  From the wakeup on the worker can rest in one place only, behind its
last batch, so a sink that answers every `send` has got every event by then.
-/

namespace Telemetry

/-- A sink whose `send` always answers. -/
def NeverPanics (σ : Type) [Sink σ] : Prop :=
  ∀ (sink : σ) (event : Event), (Sink.send sink event).1 ≠ .panicked

variable {σ : Type} [Sink σ]

theorem NeverPanics.recorder (h : NeverPanics σ) : NeverPanics (Recorder σ) := by
  intro recorder event
  rcases hsend : Sink.send recorder.inner event with ⟨answer, inner⟩
  rw [Recorder.send_eq hsend]
  have hanswer := h recorder.inner event
  rwa [hsend] at hanswer

/-- What a sink becomes by these sends. -/
def Sink.afterSends (sink : σ) (events : List Event) : σ :=
  events.foldl (fun sink event => (Sink.send sink event).2) sink

/-- Whatever it is sent from here on, the sink answers. -/
def AlwaysAnswers (sink : σ) : Prop :=
  ∀ (events : List Event) (event : Event),
    (Sink.send (Sink.afterSends sink events) event).1 ≠ .panicked

theorem NeverPanics.alwaysAnswers (h : NeverPanics σ) (sink : σ) : AlwaysAnswers sink :=
  fun _ event => h _ event

/-- A `send` leaves a sink that answers one that still does. -/
theorem AlwaysAnswers.send {sink : σ} (h : AlwaysAnswers sink) (event : Event) :
    (Sink.send sink event).1 ≠ .panicked ∧ AlwaysAnswers (Sink.send sink event).2 :=
  ⟨h [] event, fun events other => h (event :: events) other⟩

theorem AlwaysAnswers.afterSends {sink : σ} (h : AlwaysAnswers sink) (events : List Event) :
    AlwaysAnswers (Sink.afterSends sink events) := by
  intro others event
  have hanswer := h (events ++ others) event
  rwa [Sink.afterSends, List.foldl_append] at hanswer

theorem Recorder.inner_afterSends (recorder : Recorder σ) (events : List Event) :
    (Sink.afterSends recorder events).inner = Sink.afterSends recorder.inner events := by
  induction events generalizing recorder with
  | nil => rfl
  | cons event events ih => exact ih (Sink.send recorder event).2

theorem AlwaysAnswers.recorder {recorder : Recorder σ} (h : AlwaysAnswers recorder.inner) :
    AlwaysAnswers recorder := by
  intro events event
  have hanswer := h events event
  rw [← Recorder.inner_afterSends] at hanswer
  exact hanswer

/-- The worker is in its last batch or behind it. -/
def Worker.isLast : Worker → Prop
  | .draining none | .sending _ none | .exited => True
  | _ => False

namespace Agent

variable {agent after : Agent σ}

/-- Only the stop flag makes a batch the last one. -/
theorem Move.not_isLast (h : Move agent after) (hstopping : agent.stopping = false)
    (hlast : ¬ agent.worker.isLast) : ¬ after.worker.isLast := by
  cases h with
  | take room event ring hworker =>
    cases room with
    | none =>
      rw [hworker] at hlast
      exact absurd trivial hlast
    | some room => exact id
  | sent event room sink hworker =>
    cases room with
    | none =>
      rw [hworker] at hlast
      exact absurd trivial hlast
    | some room => exact id
  | rejected event room error sink hworker =>
    cases room with
    | none =>
      rw [hworker] at hlast
      exact absurd trivial hlast
    | some room => exact id
  | exit hworker =>
    rw [hworker] at hlast
    exact absurd trivial hlast
  | stop emptied hworker hset =>
    rw [hstopping] at hset
    cases hset
  | _ => exact id

/-- A worker does not die of a sink that answers. -/
theorem Move.alwaysAnswers (h : Move agent after) (hsink : AlwaysAnswers agent.sink) :
    AlwaysAnswers after.sink ∧ after.worker ≠ .dead := by
  cases h with
  | panicked event room sink hworker hstalled hsend =>
    have hanswer := (hsink.send event).1
    rw [hsend] at hanswer
    exact absurd rfl hanswer
  | sent event room sink hworker hstalled hsend =>
    have hafter := (hsink.send event).2
    rw [hsend] at hafter
    exact ⟨hafter, Worker.noConfusion⟩
  | rejected event room error sink hworker hstalled hsend =>
    have hafter := (hsink.send event).2
    rw [hsend] at hafter
    exact ⟨hafter, Worker.noConfusion⟩
  | _ => exact ⟨hsink, Worker.noConfusion⟩

theorem Move.not_dead (hsink : NeverPanics σ) (h : Move agent after)
    (_ : agent.worker ≠ .dead) : after.worker ≠ .dead :=
  (h.alwaysAnswers (hsink.alwaysAnswers _)).2

/-- A worker that is gone makes no move. -/
theorem Move.not_gone (h : Move agent after) :
    ¬ (agent.worker = .exited ∨ agent.worker = .dead) := by
  cases h <;> simp [*]

/-- A worker that can see the stop flag does not go to sleep. -/
theorem Move.not_waiting (h : Move agent after) (hstopping : agent.stopping = true) :
    after.worker ≠ .waiting := by
  intro hwaiting
  cases h with
  | sleep hworker hrunning =>
    rw [hstopping] at hrunning
    cases hrunning
  | _ => cases hwaiting

/-! ## Draining what is left -/

/-- What holds from the stop's wakeup on, as long as nobody pushes and every
`send` returns. -/
structure Ending (agent : Agent σ) : Prop where
  stopping_eq : agent.stopping = true
  stalled_eq : agent.stalled = false
  not_dead : agent.worker ≠ .dead
  woken : agent.worker = .waiting → agent.pending = true
  drained : agent.worker = .exited → agent.ring.queued = []

theorem Move.ending (h : Move agent after) (hending : Ending agent)
    (hdead : after.worker ≠ .dead) : Ending after where
  stopping_eq := h.stopping_eq.trans hending.stopping_eq
  stalled_eq := h.stalled_eq.trans hending.stalled_eq
  not_dead := hdead
  woken hwaiting := absurd hwaiting (h.not_waiting hending.stopping_eq)
  drained := by
    cases h with
    | exit hworker hpop =>
      intro _
      exact (EventRing.pop?_eq_none_iff _).mp hpop
    | _ => intro hexited; cases hexited

/-- Such a worker comes to rest behind its last batch, with the ring empty, unless a
panic unwinds it before. -/
theorem Ending.settle_or_dead (h : Ending agent) :
    (agent.settle.worker = .exited ∧ agent.settle.ring.queued = []) ∨
      agent.settle.worker = .dead := by
  have hend : agent.settle.worker ≠ .dead → Ending agent.settle :=
    settle_induction (motive := fun agent => agent.worker ≠ .dead → Ending agent)
      (fun hmove hbefore => hmove.ending (hbefore fun hdead => hmove.not_gone (.inr hdead)))
      fun _ => h
  by_cases hdead : agent.settle.worker = .dead
  · exact .inr hdead
  · left
    have hend := hend hdead
    have hworker : agent.settle.worker = .exited := by
      rcases rest_of_step?_eq_none (step?_settle agent) with
        ⟨hwaiting, hpending⟩ | ⟨event, room, -, hstalled⟩ | hexited | hdead
      · rw [hend.woken hwaiting] at hpending
        cases hpending
      · rw [hend.stalled_eq] at hstalled
        cases hstalled
      · exact hexited
      · exact absurd hdead hend.not_dead
    exact ⟨hworker, hend.drained hworker⟩

/-- With a sink that answers there is no panic. -/
theorem settle_not_dead (hsink : AlwaysAnswers agent.sink) (hdead : agent.worker ≠ .dead) :
    agent.settle.worker ≠ .dead := by
  have hsettle : AlwaysAnswers agent.settle.sink ∧ agent.settle.worker ≠ .dead :=
    settle_induction (motive := fun agent => AlwaysAnswers agent.sink ∧ agent.worker ≠ .dead)
      (fun hmove h => hmove.alwaysAnswers h.1) ⟨hsink, hdead⟩
  exact hsettle.2

theorem Ending.settle (hsink : NeverPanics σ) (h : Ending agent) :
    agent.settle.worker = .exited ∧ agent.settle.ring.queued = [] :=
  h.settle_or_dead.resolve_right (settle_not_dead (hsink.alwaysAnswers _) h.not_dead)

/-- The agent right before the owner waits for its worker. -/
def ending (agent : Agent σ) : Agent σ := { agent with running := false }.requestStop

omit [Sink σ] in
theorem ending_ending (hstalled : agent.stalled = false) (hdead : agent.worker ≠ .dead)
    (hexited : agent.worker ≠ .exited) : Ending agent.ending where
  stopping_eq := rfl
  stalled_eq := hstalled
  not_dead := hdead
  woken _ := rfl
  drained hworker := absurd hworker hexited

theorem teardown_of_running (hrunning : agent.running = true) :
    agent.teardown = agent.ending.settle.join := by
  rw [teardown, if_pos hrunning]
  rfl

theorem join_of_exited (hworker : agent.worker = .exited) :
    agent.join = { agent with sink := Sink.shutdown agent.sink } := by
  simp [join, hworker]

theorem running_teardown (agent : Agent σ) : agent.teardown.running = false := by
  by_cases hrunning : agent.running = true
  · rw [teardown_of_running hrunning]
    have hsettle : agent.ending.settle.running = false :=
      settle_induction (motive := fun agent => agent.running = false)
        (fun hmove h => hmove.running_eq.trans h) rfl
    rw [join]
    split <;> exact hsettle
  · rw [teardown, if_neg hrunning]
    simpa using hrunning

/-- Stopping an agent leaves what giving it up leaves: the second teardown does
nothing. -/
theorem stop_eq (agent : Agent σ) : agent.stop = (agent.drop.stats, agent.drop) := by
  have hagain : agent.teardown.teardown = agent.teardown := by
    rw [teardown, if_neg (by simp [running_teardown])]
  rw [stop, drop, drop, hagain]

/-- Whatever was queued has been handed over when a live agent is gone. -/
theorem drop_delivers {agent : Agent (Recorder σ)} (hsink : NeverPanics σ)
    (hrunning : agent.running = true) (hstalled : agent.stalled = false)
    (hdead : agent.worker ≠ .dead) (hexited : agent.worker ≠ .exited) :
    agent.drop.ring.queued = [] ∧
      agent.drop.sink.handed = agent.handed ++ agent.ring.queued := by
  obtain ⟨hworker, hqueued⟩ := (ending_ending hstalled hdead hexited).settle hsink.recorder
  obtain ⟨hring, hjoin⟩ := handed_join (Or.inl hworker)
  have hbalance : agent.ending.settle.handed ++ agent.ending.settle.ring.queued =
      agent.handed ++ agent.ring.queued :=
    settle_induction (motive := fun after =>
        after.handed ++ after.ring.queued = agent.handed ++ agent.ring.queued)
      (fun hmove h => hmove.handed_append_queued.trans h) rfl
  rw [drop, teardown_of_running hrunning, hring, hjoin]
  refine ⟨hqueued, ?_⟩
  rw [← hbalance, hqueued, List.append_nil]

end Agent

/-! ## Step by step -/

namespace Session

/-- As long as the sink answers, the worker is not unwound. -/
theorem alwaysAnswers_step {session : Session σ} (hsink : AlwaysAnswers session.agent.sink)
    (hdead : session.agent.worker ≠ .dead) (step : SessionStep) :
    AlwaysAnswers (session.step step).agent.sink ∧ (session.step step).agent.worker ≠ .dead :=
  agent_step (motive := fun agent => AlwaysAnswers agent.sink ∧ agent.worker ≠ .dead)
    (fun hmove h => hmove.alwaysAnswers h.1) (fun _ => id) (fun _ _ _ _ _ => id)
    ⟨hsink, hdead⟩ step

theorem alwaysAnswers_of_start {config : AgentConfig} {ring : EventRing} {sink : σ}
    {agent : Agent σ} (hstart : Agent.start config ring sink = .ok agent)
    (hsink : AlwaysAnswers sink) (steps : List SessionStep) :
    let session := ({ agent } : Session σ).run steps
    AlwaysAnswers session.agent.sink ∧ session.agent.worker ≠ .dead := by
  have hfresh := Agent.fresh_of_start hstart
  rw [← hfresh.sink_eq] at hsink
  have hdead : agent.worker ≠ .dead := by
    rw [hfresh.worker_eq]
    exact Worker.noConfusion
  exact agent_run (motive := fun agent => AlwaysAnswers agent.sink ∧ agent.worker ≠ .dead)
    (fun hmove h => hmove.alwaysAnswers h.1) (fun _ => id) (fun _ _ _ _ _ => id)
    ⟨hsink, hdead⟩ steps

/-- The steps up to the join by which an owner ends a session, once no `send` is held up
any longer. -/
def ending (moves : Nat) : List SessionStep :=
  [.release, .flag, .wake] ++ List.replicate moves .work

/-- Step by step the worker gets where the agent's own teardown takes it. -/
theorem run_ending {session : Session σ} (howner : session.owner = .holding) :
    ∃ moves, session.run (ending moves) =
      { agent := session.agent.release.ending.settle, owner := .joining } := by
  obtain ⟨agent, owner⟩ := session
  cases howner
  obtain ⟨moves, hmoves⟩ := run_work agent.release.ending .joining
  refine ⟨moves, ?_⟩
  rw [ending, run, List.foldl_append]
  exact hmoves

end Session

end Telemetry
