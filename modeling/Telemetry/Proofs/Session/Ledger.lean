import Telemetry.Proofs.Session.Ending
import Telemetry.Proofs.Session.Pushes

/-!
# The ledger of a session

A session is told by the sends of its worker, each with its answer, and by the
number of times it was notified: its counters are tallies of these, its sink has
got nothing else, and a panic can only be the last of them.  Once the worker is
gone no more is entered but wakeups.
-/

namespace Telemetry

/-- A `send` that has returned or panicked. -/
structure Send where
  event : Event
  answer : Answer

namespace Send

def call (send : Send) : SinkCall := .send send.event send.answer

def accepted (send : Send) : Bool :=
  match send.answer with
  | .accepted => true
  | _ => false

def rejected (send : Send) : Bool :=
  match send.answer with
  | .rejected _ => true
  | _ => false

def panicked (send : Send) : Bool :=
  match send.answer with
  | .panicked => true
  | _ => false

end Send

/-- Whether the sink returned from every one of these sends. -/
def AllAnswered (sends : List Send) : Prop := ∀ send ∈ sends, send.panicked = false

theorem AllAnswered.append_singleton {sends : List Send} {send : Send} (h : AllAnswered sends)
    (hsend : send.panicked = false) : AllAnswered (sends ++ [send]) := by
  intro other hmem
  rcases List.mem_append.mp hmem with hmem | hmem
  · exact h other hmem
  · rwa [List.mem_singleton.mp hmem]

/-- A `send` ends in one of three ways. -/
theorem length_eq_outcomes (sends : List Send) :
    sends.length = sends.countP Send.accepted + sends.countP Send.rejected +
      sends.countP Send.panicked := by
  induction sends with
  | nil => rfl
  | cons send sends ih =>
    obtain ⟨event, answer⟩ := send
    simp only [List.length_cons, List.countP_cons, ih]
    cases answer <;> simp [Send.accepted, Send.rejected, Send.panicked] <;> omega

/-- The events that these sends hand over. -/
theorem filterMap_event?_call (sends : List Send) :
    (sends.map Send.call).filterMap SinkCall.event? = sends.map Send.event := by
  rw [List.filterMap_map]
  change sends.filterMap (some ∘ Send.event) = _
  rw [List.filterMap_eq_map]

theorem AllAnswered.countP_panicked {sends : List Send} (h : AllAnswered sends) :
    sends.countP Send.panicked = 0 := by
  rw [List.countP_eq_zero]
  intro send hmem
  simp [h send hmem]

/-- The counters of a session with these sends that was notified so often. -/
def Stats.tally (sends : List Send) (notifies : Nat) : Stats where
  sent := .ofNat (sends.countP Send.accepted)
  wakeups := .ofNat notifies
  sendFailures := .ofNat (sends.countP Send.rejected)

/-- Every answered `send` is counted once. -/
theorem AllAnswered.sent_add_sendFailures {sends : List Send} (h : AllAnswered sends)
    (notifies : Nat) :
    (Stats.tally sends notifies).sent + (Stats.tally sends notifies).sendFailures =
      .ofNat sends.length := by
  rw [Stats.tally, ← UInt64.ofNat_add, length_eq_outcomes sends, h.countP_panicked, Nat.add_zero]

/-- The counters behind so many wakeups. -/
def Stats.addWakeups (stats : Stats) (wakeups : Nat) : Stats :=
  { stats with wakeups := stats.wakeups + .ofNat wakeups }

namespace Stats

theorem addWakeups_zero (stats : Stats) : stats.addWakeups 0 = stats := by
  simp [addWakeups]

theorem addWakeups_addWakeups (stats : Stats) (first others : Nat) :
    (stats.addWakeups first).addWakeups others = stats.addWakeups (first + others) := by
  simp [addWakeups, UInt64.ofNat_add, UInt64.add_assoc]

theorem addWakeups_tally (sends : List Send) (notifies others : Nat) :
    (tally sends notifies).addWakeups others = tally sends (notifies + others) := by
  simp [addWakeups, tally, UInt64.ofNat_add]

end Stats

theorem SessionStep.count_notify_cons (step : SessionStep) (steps : List SessionStep) :
    (step :: steps).count .notify = [step].count .notify + steps.count .notify := by
  rw [← List.singleton_append, List.count_append]

variable {σ : Type} [Sink σ]

namespace Agent

/-- The agent's sink had got the calls `before` when the session began, and since then
these sends. -/
structure Ledger (agent : Agent (Recorder σ)) (before : List SinkCall) (sends : List Send)
    (notifies : Nat) : Prop where
  calls_eq : agent.sink.calls = before ++ sends.map Send.call
  stats_eq : agent.stats = .tally sends notifies
  answered : agent.worker ≠ .dead → AllAnswered sends
  unwound : agent.worker = .dead →
    ∃ answered event, AllAnswered answered ∧ sends = answered ++ [⟨event, .panicked⟩]

variable {agent after : Agent (Recorder σ)} {before : List SinkCall} {sends : List Send}
  {notifies : Nat}

omit [Sink σ] in
theorem Fresh.ledger {ring : EventRing} {recorder : Recorder σ}
    (h : Fresh agent ring recorder) : Ledger agent recorder.calls [] 0 where
  calls_eq := by
    rw [h.sink_eq]
    exact (List.append_nil _).symm
  stats_eq := h.stats_eq
  answered _ := by
    intro send hmem
    cases hmem
  unwound hdead := by
    rw [h.worker_eq] at hdead
    cases hdead

/-- A `send` that ends is entered, and nothing else is. -/
theorem Move.ledger (h : Move agent after) (hledger : Ledger agent before sends notifies) :
    ∃ sends, Ledger after before sends notifies := by
  have hanswered : AllAnswered sends := hledger.answered fun hdead => h.not_gone (.inr hdead)
  have hcalls {event : Event} {answer : Answer} {sink : Recorder σ}
      (hsend : Sink.send agent.sink event = (answer, sink)) :
      sink.calls = before ++ (sends ++ [Send.mk event answer]).map Send.call := by
    rw [List.map_append, ← List.append_assoc, ← hledger.calls_eq]
    exact Recorder.calls_of_send hsend
  cases h with
  | sent event room sink hworker hstalled hsend =>
    refine ⟨sends ++ [⟨event, .accepted⟩], hcalls hsend, ?_,
      fun _ => hanswered.append_singleton rfl, fun hdead => by cases hdead⟩
    simp [hledger.stats_eq, Stats.addSent, Stats.tally, Send.accepted, Send.rejected,
      UInt64.ofNat_add]
  | rejected event room error sink hworker hstalled hsend =>
    refine ⟨sends ++ [⟨event, .rejected error⟩], hcalls hsend, ?_,
      fun _ => hanswered.append_singleton rfl, fun hdead => by cases hdead⟩
    simp [hledger.stats_eq, Stats.addSendFailure, Stats.tally, Send.accepted, Send.rejected,
      UInt64.ofNat_add]
  | panicked event room sink hworker hstalled hsend =>
    refine ⟨sends ++ [⟨event, .panicked⟩], hcalls hsend, ?_, fun hdead => absurd rfl hdead,
      fun _ => ⟨sends, event, hanswered, rfl⟩⟩
    simp [hledger.stats_eq, Stats.tally, Send.accepted, Send.rejected]
  | _ =>
    exact ⟨sends, hledger.calls_eq, hledger.stats_eq, fun _ => hanswered,
      fun hdead => by cases hdead⟩

omit [Sink σ] in
/-- What a ledger says to have been handed over. -/
theorem Ledger.handed_eq (h : Ledger agent before sends notifies) :
    agent.handed =
      before.filterMap SinkCall.event? ++ sends.map Send.event ++ agent.inFlight := by
  rw [handed, Recorder.handed, h.calls_eq, List.filterMap_append, filterMap_event?_call]

end Agent

namespace Session

variable {session : Session (Recorder σ)} {before : List SinkCall} {sends : List Send}
  {notifies : Nat}

theorem ledger_step (h : session.agent.Ledger before sends notifies) (step : SessionStep) :
    ∃ sends, (session.step step).agent.Ledger before sends (notifies + [step].count .notify) := by
  obtain ⟨agent, owner⟩ := session
  cases step with
  | notify =>
    refine ⟨sends, h.calls_eq, ?_, h.answered, h.unwound⟩
    change agent.stats.addWakeups 1 = _
    rw [h.stats_eq]
    exact Stats.addWakeups_tally sends notifies 1
  | work =>
    change ∃ sends, (agent.step?.getD agent).Ledger before sends notifies
    rcases agent.rest_or_move with hrest | hmove
    · rw [hrest]
      exact ⟨sends, h⟩
    · exact hmove.ledger h
  | flag | wake => cases owner <;> exact ⟨sends, { h with }⟩
  | push event => exact ⟨sends, { h with }⟩
  | stall | release => exact ⟨sends, { h with }⟩

theorem ledger_run (h : session.agent.Ledger before sends notifies) (steps : List SessionStep) :
    ∃ sends, (session.run steps).agent.Ledger before sends (notifies + steps.count .notify) := by
  induction steps generalizing session sends notifies with
  | nil => exact ⟨sends, h⟩
  | cons step steps ih =>
    obtain ⟨sends, hstep⟩ := ledger_step h step
    rw [SessionStep.count_notify_cons, ← Nat.add_assoc]
    exact ih hstep

/-- A session has an entry for every event that was queued at its start or has been
accepted since, as far as it is not being sent or queued still. -/
theorem ledger_of_start {config : AgentConfig} {ring : EventRing} {recorder : Recorder σ}
    {agent : Agent (Recorder σ)} (hstart : Agent.start config ring recorder = .ok agent)
    (steps : List SessionStep) :
    let first : Session (Recorder σ) := { agent }
    let session := first.run steps
    ∃ sends, session.agent.Ledger recorder.calls sends (steps.count .notify) ∧
      sends.map Send.event ++ session.agent.inFlight ++ session.agent.ring.queued =
        ring.queued ++ first.accepted steps := by
  intro first session
  have hfresh := Agent.fresh_of_start hstart
  have hfirst : first.agent.Ledger recorder.calls [] 0 := hfresh.ledger
  obtain ⟨sends, hledger⟩ := ledger_run hfirst steps
  rw [Nat.zero_add] at hledger
  refine ⟨sends, hledger, ?_⟩
  have hbalance := first.handed_append_queued_run steps
  have hhanded : first.agent.handed = recorder.handed := by
    simp [first, Agent.handed, Agent.inFlight, hfresh.sink_eq, hfresh.worker_eq]
  have hring : first.agent.ring = ring := hfresh.ring_eq
  rw [hledger.handed_eq, hhanded, hring, Recorder.handed] at hbalance
  simpa only [List.append_assoc, List.append_cancel_left_eq] using hbalance

/-! ## When the worker is gone -/

/-- The worker has returned, or a panic has unwound it. -/
def Gone (session : Session σ) : Prop :=
  session.agent.worker = .exited ∨ session.agent.worker = .dead

omit [Sink σ] in
theorem Gone.inFlight_eq {session : Session σ} (h : session.Gone) :
    session.agent.inFlight = [] := by
  rcases h with hworker | hworker <;> simp [Agent.inFlight, hworker]

/-- When the worker is gone, nobody else uses the sink, and of the counters only that of
the wakeups goes on. -/
structure Behind (session after : Session σ) (notifies : Nat) : Prop where
  worker_eq : after.agent.worker = session.agent.worker
  sink_eq : after.agent.sink = session.agent.sink
  stats_eq : after.agent.stats = session.agent.stats.addWakeups notifies

theorem Gone.step {session : Session σ} (h : session.Gone) (step : SessionStep) :
    Behind session (session.step step) ([step].count .notify) := by
  obtain ⟨agent, owner⟩ := session
  have hstats : agent.stats = agent.stats.addWakeups 0 := agent.stats.addWakeups_zero.symm
  cases step with
  | notify => exact ⟨rfl, rfl, rfl⟩
  | work =>
    rcases agent.rest_or_move with hrest | hmove
    · rw [Session.step, hrest]
      exact ⟨rfl, rfl, hstats⟩
    · exact absurd h hmove.not_gone
  | flag | wake => cases owner <;> exact ⟨rfl, rfl, hstats⟩
  | push event => exact ⟨rfl, rfl, hstats⟩
  | stall | release => exact ⟨rfl, rfl, hstats⟩

theorem Gone.run {session : Session σ} (h : session.Gone) (steps : List SessionStep) :
    Behind session (session.run steps) (steps.count .notify) := by
  induction steps generalizing session with
  | nil => exact ⟨rfl, rfl, session.agent.stats.addWakeups_zero.symm⟩
  | cons step steps ih =>
    have hstep := h.step step
    have hgone : (session.step step).Gone := by
      rw [Gone, hstep.worker_eq]
      exact h
    have hrun := ih hgone
    refine ⟨hrun.worker_eq.trans hstep.worker_eq, hrun.sink_eq.trans hstep.sink_eq, ?_⟩
    rw [SessionStep.count_notify_cons, ← Stats.addWakeups_addWakeups, ← hstep.stats_eq]
    exact hrun.stats_eq

/-- What is pushed then stays in the ring. -/
theorem Gone.queued_run (hgone : session.Gone) (steps : List SessionStep) :
    (session.run steps).agent.ring.queued =
      session.agent.ring.queued ++ session.accepted steps := by
  have hbehind := hgone.run steps
  have hhanded : (session.run steps).agent.handed = session.agent.handed := by
    rw [Agent.handed, Agent.handed, Agent.inFlight, Agent.inFlight, hbehind.worker_eq,
      hbehind.sink_eq]
  have hbalance := session.handed_append_queued_run steps
  rw [hhanded, List.append_assoc] at hbalance
  exact List.append_cancel_left hbalance

end Session

end Telemetry
