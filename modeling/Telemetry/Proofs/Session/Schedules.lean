import Telemetry.Proofs.Session.Coalescing
import Telemetry.Proofs.Session.Teardown

/-!
# Schedules cannot be told apart

When a worker is notified decides in which wakes and batches the events go out, and while
a session lasts that can be seen.  What the session leaves is decided by its pushes and
their answers alone: the ring is one that got these pushes, the sink is one that was sent
the accepted events in their order, and the counters tell how it answered.
-/

namespace Telemetry

variable {σ : Type} [Sink σ]

/-! ## Rings -/

namespace EventRing

variable {ring rest : EventRing} {event : Event}

/-- The ring with everything taken out. -/
def drained (ring : EventRing) : EventRing :=
  { ring with tail := ring.head, tail_lt := ring.head_lt }

/-- What an answered push makes of a ring that is drained behind it. -/
def answered (ring : EventRing) : Event × Bool → EventRing
  | (event, true) => (ring.push event).2.drained
  | (_, false) => { ring with dropped := ring.dropped + 1 }

theorem drained_of_empty (h : ring.queued = []) : ring.drained = ring := by
  have htail : ring.tail = ring.head := by
    rw [tail_eq_head_iff, ← queued_eq_nil_iff]
    exact h
  rw [drained]
  congr 1
  exact htail.symm

theorem drained_of_pop? (h : ring.pop? = some (event, rest)) : rest.drained = ring.drained := by
  rw [pop?] at h
  split at h
  · cases h
  · cases h
    rfl

theorem queued_drained (ring : EventRing) : ring.drained.queued = [] := by
  rw [queued_eq_nil_iff, ← tail_eq_head_iff]
  rfl

/-- A ring that takes an event takes it as well when nothing is queued. -/
theorem drained_push (ring : EventRing) (event : Event) :
    (ring.push event).2.drained = ring.drained.answered (event, (ring.push event).1) := by
  rcases Nat.lt_or_eq_of_le ring.length_queued_le with hroom | hfull
  · have hnext : ring.next ring.head ≠ ring.tail := by
      rw [Ne, next_head_eq_tail_iff, ← length_queued]
      exact hroom.ne
    have hdrained : ring.drained.next ring.drained.head ≠ ring.drained.tail := by
      rw [Ne, next_head_eq_tail_iff, ← length_queued, queued_drained]
      exact (Nat.zero_lt_of_lt hroom).ne
    rw [push, if_neg hnext, answered, push, if_neg hdrained]
    rfl
  · rw [push_of_full hfull]
    rfl

end EventRing

theorem Agent.Move.drained_eq {agent after : Agent σ} (h : Agent.Move agent after) :
    after.ring.drained = agent.ring.drained := by
  cases h with
  | take room event ring hworker hroom hpop => exact EventRing.drained_of_pop? hpop
  | _ => rfl

namespace Session

theorem drained_step (session : Session σ) (step : SessionStep) :
    (session.step step).agent.ring.drained =
      (session.pushed step).foldl EventRing.answered session.agent.ring.drained := by
  obtain ⟨agent, owner⟩ := session
  cases step with
  | push event => exact agent.ring.drained_push event
  | work =>
    change (agent.step?.getD agent).ring.drained = agent.ring.drained
    rcases agent.rest_or_move with hrest | hmove
    · rw [hrest]
    · exact hmove.drained_eq
  | flag | wake => cases owner <;> rfl
  | notify | stall | release => rfl

/-- Whatever the worker takes out meanwhile, the pushes and their answers tell what is
written into the ring. -/
theorem drained_run (session : Session σ) (steps : List SessionStep) :
    (session.run steps).agent.ring.drained =
      (session.history steps).foldl EventRing.answered session.agent.ring.drained := by
  induction steps generalizing session with
  | nil => rfl
  | cons step steps ih =>
    rw [history, List.foldl_append, ← drained_step]
    exact ih (session.step step)

end Session

/-! ## Sinks -/

/-- The sends by which a sink is handed these events. -/
def Sink.sends (sink : σ) : List Event → List Send
  | [] => []
  | event :: events =>
    ⟨event, (Sink.send sink event).1⟩ :: Sink.sends (Sink.send sink event).2 events

theorem Sink.map_event_sends (sink : σ) (events : List Event) :
    (Sink.sends sink events).map Send.event = events := by
  induction events generalizing sink with
  | nil => rfl
  | cons event events ih => rw [Sink.sends, List.map_cons, ih]

theorem Recorder.calls_afterSends (recorder : Recorder σ) (events : List Event) :
    (Sink.afterSends recorder events).calls =
      recorder.calls ++ (Sink.sends recorder.inner events).map Send.call := by
  induction events generalizing recorder with
  | nil => exact (List.append_nil _).symm
  | cons event events ih =>
    change (Sink.afterSends (Sink.send recorder event).2 events).calls = _
    rw [ih, Recorder.send_eq rfl, Sink.sends, List.map_cons, List.append_assoc]
    rfl

theorem Send.call_injective : Function.Injective Send.call := by
  intro left right h
  cases left
  cases right
  cases h
  rfl

theorem Sink.afterSends_append_singleton (sink : σ) (events : List Event) (event : Event) :
    Sink.afterSends sink (events ++ [event]) =
      (Sink.send (Sink.afterSends sink events) event).2 := by
  rw [afterSends, List.foldl_append]
  rfl

theorem Sink.sends_append_singleton (sink : σ) (events : List Event) (event : Event) :
    Sink.sends sink (events ++ [event]) =
      Sink.sends sink events ++ [⟨event, (Sink.send (Sink.afterSends sink events) event).1⟩] := by
  induction events generalizing sink with
  | nil => rfl
  | cons other events ih => exact congrArg (List.cons _) (ih (Sink.send sink other).2)

/-- The worker does nothing to the sink but send. -/
theorem Session.exists_afterSends (session : Session σ) (steps : List SessionStep) :
    ∃ events, (session.run steps).agent.sink = Sink.afterSends session.agent.sink events := by
  refine agent_run
    (motive := fun agent => ∃ events, agent.sink = Sink.afterSends session.agent.sink events)
    ?_ (fun _ => id) (fun _ _ _ _ _ => id) ⟨[], rfl⟩ steps
  intro agent after hmove hsink
  refine hmove.sink_induction
    (motive := fun sink => ∃ events, sink = Sink.afterSends session.agent.sink events) ?_ hsink
  rintro sink event ⟨events, rfl⟩
  exact ⟨events ++ [event], (Sink.afterSends_append_singleton _ events event).symm⟩

/-! ## What a session leaves -/

/-- The worker has been joined behind a session over this ring and sink, and the agent is
left as these answered pushes leave it. -/
structure Agent.Finished (agent : Agent (Recorder σ)) (ring : EventRing) (recorder : Recorder σ)
    (pushes : List (Event × Bool)) (notifies : Nat) : Prop where
  worker_eq : agent.worker = .exited
  ring_eq : agent.ring = pushes.foldl EventRing.answered ring.drained
  sink_eq : agent.sink =
    Sink.shutdown (Sink.afterSends recorder (ring.queued ++ takenOf pushes))
  stats_eq : agent.stats =
    .tally (Sink.sends recorder.inner (ring.queued ++ takenOf pushes)) notifies

namespace Session

section Start

variable {config : AgentConfig} {ring : EventRing} {recorder : Recorder σ}
  {agent : Agent (Recorder σ)}

/-- A worker that has returned and left nothing has sent all there was: the record tells
the sends, and they tell the events. -/
theorem finished_of_exited (hstart : Agent.start config ring recorder = .ok agent)
    (steps : List SessionStep) :
    let first : Session (Recorder σ) := { agent }
    let final := first.run steps
    final.agent.worker = .exited → final.agent.ring.queued = [] →
      final.agent.join.Finished ring recorder (first.history steps) (steps.count .notify) := by
  intro first final hexited hempty
  have hfresh := Agent.fresh_of_start hstart
  obtain ⟨sends, hledger, hsends⟩ := ledger_of_start hstart steps
  change final.agent.Ledger _ _ _ at hledger
  change sends.map Send.event ++ final.agent.inFlight ++ final.agent.ring.queued = _ at hsends
  rw [Gone.inFlight_eq (.inl hexited), hempty, List.append_nil, List.append_nil,
    ← takenOf_history] at hsends
  obtain ⟨events, hsink⟩ := first.exists_afterSends steps
  have hrecorder : first.agent.sink = recorder := hfresh.sink_eq
  have hring : first.agent.ring = ring := hfresh.ring_eq
  change final.agent.sink = _ at hsink
  rw [hrecorder] at hsink
  have hcalls : sends = Sink.sends recorder.inner events := by
    have hcalls := hledger.calls_eq
    rw [hsink, Recorder.calls_afterSends] at hcalls
    exact (Send.call_injective.list_map (List.append_cancel_left hcalls)).symm
  have hevents : events = ring.queued ++ takenOf (first.history steps) := by
    rw [← hsends, hcalls, Sink.map_event_sends]
  rw [Agent.join_of_exited hexited]
  refine ⟨hexited, ?_, ?_, ?_⟩
  · have hdrained := first.drained_run steps
    rw [EventRing.drained_of_empty hempty, hring] at hdrained
    exact hdrained
  · rw [← hevents, ← hsink]
  · rw [← hevents, ← hcalls]
    exact hledger.stats_eq

end Start

end Session

/-! ## Ways to end it -/

/-- The ways to end a session that has got these answered pushes and so many calls of
`notify`.  Its owner gives the agent up, which is what stopping it does as well, wherever
that meets the worker or behind a played script; or the others go on while the owner ends
the session, and push nothing any more. -/
inductive Session.Ends (first : Session σ) : List (Event × Bool) → Nat → Agent σ → Prop where
  | stopped (steps : List SessionStep) (howner : (first.run steps).owner = .holding) :
      Ends first (first.history steps) (steps.count .notify) (first.run steps).agent.release.drop
  | played (script : List SessionStep) (howner : (first.playAll script).owner = .holding) :
      Ends first (first.answers script) (script.count .notify)
        (first.playAll script).agent.release.drop
  | joined (steps meanwhile : List SessionStep) (howner : (first.run steps).owner = .holding)
      (hpush : ∀ event, .push event ∉ meanwhile)
      (hexited : (((first.run steps).step .flag).run meanwhile).agent.worker = .exited) :
      Ends first (first.history steps) ((steps ++ meanwhile).count .notify)
        (((first.run steps).step .flag).run meanwhile).agent.join

namespace Session

/-- A played script is a run in which the worker takes many steps. -/
theorem exists_run_eq_playAll (session : Session σ) (script : List SessionStep) :
    ∃ steps, session.run steps = session.playAll script ∧
      session.history steps = session.answers script ∧
      steps.count .notify = script.count .notify := by
  induction script generalizing session with
  | nil => exact ⟨[], rfl, rfl, rfl⟩
  | cons step script ih =>
    obtain ⟨steps, hrun, hhistory, hcount⟩ := ih (session.play step)
    obtain ⟨moves, hmoves⟩ := run_work (session.step step).agent (session.step step).owner
    change (session.step step).run (List.replicate moves .work) = session.play step at hmoves
    have hpush : ∀ event, .push event ∉ List.replicate moves SessionStep.work := by simp
    have hwork : (List.replicate moves SessionStep.work).count .notify = 0 := by
      rw [List.count_replicate]
      rfl
    refine ⟨step :: (List.replicate moves .work ++ steps), ?_, ?_, ?_⟩
    · change (session.step step).run (List.replicate moves .work ++ steps) = _
      rw [run_append, hmoves, hrun]
      rfl
    · rw [history, answers, history_append, history_of_no_push _ hpush, hmoves, hhistory]
      rfl
    · rw [SessionStep.count_notify_cons, List.count_append, hwork, Nat.zero_add, hcount]
      exact (SessionStep.count_notify_cons step script).symm

section Start

variable {config : AgentConfig} {ring : EventRing} {recorder : Recorder σ}
  {agent : Agent (Recorder σ)} {pushes : List (Event × Bool)} {notifies : Nat}
  {ended : Agent (Recorder σ)}

/-- Nothing is pushed any more, so the last batch leaves nothing. -/
theorem finished_of_no_push (hstart : Agent.start config ring recorder = .ok agent)
    (steps : List SessionStep) {behind : List SessionStep}
    (hpush : ∀ event, .push event ∉ behind) :
    let first : Session (Recorder σ) := { agent }
    let session := first.run steps
    session.agent.worker ≠ .exited → (session.run behind).agent.worker = .exited →
      (session.run behind).agent.join.Finished ring recorder (first.history steps)
        ((steps ++ behind).count .notify) := by
  intro first session hworker hexited
  have hrun : first.run (steps ++ behind) = session.run behind := first.run_append steps behind
  have hhistory : first.history (steps ++ behind) = first.history steps := by
    rw [history_append, history_of_no_push _ hpush, List.append_nil]
  obtain ⟨sends, taken, -, -, htaken⟩ := closed_of_exited hstart steps behind hworker hexited
  have haccepted : session.accepted behind = [] := by
    rw [← takenOf_history, history_of_no_push _ hpush]
    rfl
  change session.accepted behind = taken ++ (session.run behind).agent.ring.queued at htaken
  rw [haccepted] at htaken
  have hfinished := finished_of_exited hstart (steps ++ behind)
  change (first.run (steps ++ behind)).agent.worker = .exited → _ at hfinished
  rw [hrun, hhistory] at hfinished
  exact hfinished hexited (List.append_eq_nil_iff.mp htaken.symm).2

theorem finished_of_drop (hstart : Agent.start config ring recorder = .ok agent)
    (hsink : AlwaysAnswers recorder.inner) (steps : List SessionStep) :
    let first : Session (Recorder σ) := { agent }
    (first.run steps).owner = .holding →
      (first.run steps).agent.release.drop.Finished ring recorder (first.history steps)
        (steps.count .notify) := by
  intro first howner
  obtain ⟨hworker, moves, hexited, -, hdrop⟩ :=
    drop_eq_join_run hstart hsink.recorder steps howner
  have hfinished := finished_of_no_push hstart steps (push_not_mem_ending moves) hworker hexited
  rw [List.count_append, count_notify_ending, Nat.add_zero] at hfinished
  rw [hdrop]
  exact hfinished

/-- However a session ends, its pushes and their answers tell what it leaves. -/
theorem Ends.finished (hstart : Agent.start config ring recorder = .ok agent)
    (hsink : AlwaysAnswers recorder.inner)
    (h : ({ agent } : Session (Recorder σ)).Ends pushes notifies ended) :
    ended.Finished ring recorder pushes notifies := by
  cases h with
  | stopped steps howner => exact finished_of_drop hstart hsink steps howner
  | played script howner =>
    obtain ⟨steps, hrun, hhistory, hcount⟩ :=
      ({ agent } : Session (Recorder σ)).exists_run_eq_playAll script
    rw [← hrun, ← hhistory, ← hcount]
    rw [← hrun] at howner
    exact finished_of_drop hstart hsink steps howner
  | joined steps meanwhile howner hpush hexited =>
    have hheld := held_of_start hstart steps howner
      (alwaysAnswers_of_start hstart hsink.recorder steps).2
    have hbehind : ∀ event, .push event ∉ SessionStep.flag :: meanwhile := fun event hmem =>
      hpush event ((List.mem_cons.mp hmem).resolve_left SessionStep.noConfusion)
    have hfinished := finished_of_no_push hstart steps hbehind hheld.not_exited hexited
    rw [List.count_append, List.count_cons_of_ne SessionStep.noConfusion,
      ← List.count_append] at hfinished
    exact hfinished

end Start

end Session

/-! ## Taking the recorder out -/

namespace Session

theorem history_forget (session : Session (Recorder σ)) (steps : List SessionStep) :
    session.forget.history steps = session.history steps := by
  induction steps generalizing session with
  | nil => rfl
  | cons step steps ih =>
    have hpushed : session.forget.pushed step = session.pushed step := by cases step <;> rfl
    rw [history, history, hpushed, ← forget_step, ih]

theorem answers_forget (session : Session (Recorder σ)) (script : List SessionStep) :
    session.forget.answers script = session.answers script := by
  induction script generalizing session with
  | nil => rfl
  | cons step script ih =>
    have hpushed : session.forget.pushed step = session.pushed step := by cases step <;> rfl
    rw [answers, answers, hpushed, ← forget_play, ih]

variable {first : Session (Recorder σ)} {pushes : List (Event × Bool)} {notifies : Nat}

theorem forget_drop_run (steps : List SessionStep) :
    (first.run steps).agent.release.drop.forget =
      (first.forget.run steps).agent.release.drop := by
  rw [← forget_run]
  exact Agent.forget_drop _

theorem forget_drop_playAll (script : List SessionStep) :
    (first.playAll script).agent.release.drop.forget =
      (first.forget.playAll script).agent.release.drop := by
  rw [← forget_playAll]
  exact Agent.forget_drop _

theorem forget_join_run (steps meanwhile : List SessionStep) :
    (((first.run steps).step .flag).run meanwhile).agent.join.forget =
      (((first.forget.run steps).step .flag).run meanwhile).agent.join := by
  rw [← forget_run, ← forget_step, ← forget_run]
  exact Agent.forget_join _

theorem Ends.forget {ended : Agent (Recorder σ)} (h : first.Ends pushes notifies ended) :
    first.forget.Ends pushes notifies ended.forget := by
  cases h with
  | stopped steps howner =>
    change (first.run steps).forget.owner = .holding at howner
    rw [forget_run] at howner
    rw [forget_drop_run, ← history_forget]
    exact .stopped steps howner
  | played script howner =>
    change (first.playAll script).forget.owner = .holding at howner
    rw [forget_playAll] at howner
    rw [forget_drop_playAll, ← answers_forget]
    exact .played script howner
  | joined steps meanwhile howner hpush hexited =>
    change (((first.run steps).step .flag).run meanwhile).forget.agent.worker = .exited at hexited
    change (first.run steps).forget.owner = .holding at howner
    rw [forget_run, forget_step, forget_run] at hexited
    rw [forget_run] at howner
    rw [forget_join_run, ← history_forget]
    exact .joined steps meanwhile howner hpush hexited

/-- Whatever an end is without a recorder, there is one with it. -/
theorem Ends.exists_recorded {ended : Agent σ} (h : first.forget.Ends pushes notifies ended) :
    ∃ recorded, first.Ends pushes notifies recorded ∧ recorded.forget = ended := by
  cases h with
  | stopped steps howner =>
    rw [← forget_run] at howner
    rw [history_forget]
    exact ⟨_, .stopped steps howner, forget_drop_run steps⟩
  | played script howner =>
    rw [← forget_playAll] at howner
    rw [answers_forget]
    exact ⟨_, .played script howner, forget_drop_playAll script⟩
  | joined steps meanwhile howner hpush hexited =>
    rw [← forget_run, ← forget_step, ← forget_run] at hexited
    rw [← forget_run] at howner
    rw [history_forget]
    exact ⟨_, .joined steps meanwhile howner hpush hexited, forget_join_run steps meanwhile⟩

/-- A session ends in the same ways with a recorder and without. -/
theorem ends_forget_iff {ended : Agent σ} :
    first.forget.Ends pushes notifies ended ↔
      ∃ recorded, first.Ends pushes notifies recorded ∧ recorded.forget = ended := by
  constructor
  · exact Ends.exists_recorded
  · rintro ⟨recorded, h, rfl⟩
    exact h.forget

end Session

/-! ## The schedule leaves no trace -/

/-- The agents are left alike, except for how often they were notified. -/
structure Agent.LeftAlike (one two : Agent (Recorder σ)) : Prop where
  ring_eq : one.ring = two.ring
  /-- The sinks have got the same calls, answered them alike and are in the same state. -/
  sink_eq : one.sink = two.sink
  sent_eq : one.stats.sent = two.stats.sent
  sendFailures_eq : one.stats.sendFailures = two.stats.sendFailures

theorem Agent.Finished.leftAlike {one two : Agent (Recorder σ)} {ring : EventRing}
    {recorder : Recorder σ} {pushes : List (Event × Bool)} {notifies others : Nat}
    (hone : one.Finished ring recorder pushes notifies)
    (htwo : two.Finished ring recorder pushes others) : one.LeftAlike two where
  ring_eq := hone.ring_eq.trans htwo.ring_eq.symm
  sink_eq := hone.sink_eq.trans htwo.sink_eq.symm
  sent_eq := by
    rw [hone.stats_eq, htwo.stats_eq]
    rfl
  sendFailures_eq := by
    rw [hone.stats_eq, htwo.stats_eq]
    rfl

namespace Session

/-- Several calls of `notify` in one place, through the agent or a notifier, are one that is
counted several times: nothing that is seen then or later differs but that count.  And
where a session is notified, how often, or whether it is at all, has no part in what it
leaves but by the pushes that are accepted: two ends behind the same pushes with the same
answers leave the same ring, the same sink and the same counters of its answers. -/
theorem notifies_leave_no_trace {config : AgentConfig} {ring : EventRing} {recorder : Recorder σ}
    {agent : Agent (Recorder σ)} (hstart : Agent.start config ring recorder = .ok agent)
    (hsink : AlwaysAnswers recorder.inner) :
    let first : Session (Recorder σ) := { agent }
    (∀ before behind extra,
      let once := before ++ .notify :: behind
      let often := before ++ List.replicate (extra + 1) .notify ++ behind
      first.history often = first.history once ∧
        first.run often = (first.run once).addWakeups extra ∧
        first.answers often = first.answers once ∧
        (first.playAll often).outlook = (first.playAll once).outlook.addWakeups extra ∧
        ∃ shown later,
          first.observed once = first.observed before ++ shown :: later ∧
          first.observed often =
            first.observed before ++ (List.range (extra + 1)).map shown.addWakeups ++
              later.map (·.addWakeups extra)) ∧
    (∀ {pushes notifies others one two},
      first.Ends pushes notifies one → first.Ends pushes others two →
        one.LeftAlike two ∧ one.worker = .exited ∧ two.worker = .exited ∧
          one.stats.wakeups = .ofNat notifies ∧ two.stats.wakeups = .ofNat others) ∧
    ∀ {pushes notifies ended}, first.forget.Ends pushes notifies ended ↔
      ∃ recorded, first.Ends pushes notifies recorded ∧ recorded.forget = ended := by
  intro first
  obtain ⟨hrest, -⟩ := resting_of_start hstart
  refine ⟨?_, ?_, ends_forget_iff⟩
  · intro before behind extra once often
    obtain ⟨houtlook, hanswers, hobserved⟩ := hrest.notifies before behind extra
    exact ⟨first.history_notifies before behind extra, first.run_notifies before behind extra,
      hanswers, houtlook, hobserved⟩
  · intro pushes notifies others one two hone htwo
    have hone := hone.finished hstart hsink
    have htwo := htwo.finished hstart hsink
    refine ⟨hone.leftAlike htwo, hone.worker_eq, htwo.worker_eq, ?_, ?_⟩
    · rw [hone.stats_eq]
      rfl
    · rw [htwo.stats_eq]
      rfl

/-- A session that nobody notifies, and one whose worker is held up in a `send` and notified
again.  The third push is refused in both, and the sink rejects every second event. -/
theorem left_alike_notified_or_not :
    let first : Event := .blank
    let second : Event := { Event.blank with id := 1 }
    let pushes : List SessionStep := [.push first, .push second, .push second]
    let held : List SessionStep := [.stall, .work, .work, .notify, .notify]
    let busy := pushes ++ .notify :: held
    ∃ ring agent,
      Agent.start { maxDrainPerWake := 1 } ring
        ({ inner := { failEvery := 2 } } : Recorder CountingSink) = .ok agent ∧
      let session : Session (Recorder CountingSink) := { agent }
      session.history pushes = [(first, true), (second, true), (second, false)] ∧
        session.history busy = session.history pushes ∧
        (session.run busy).agent.worker = .sending first (some 0) ∧
        session.run (pushes ++ List.replicate 3 .notify ++ held) =
          (session.run busy).addWakeups 2 ∧
        let quiet := (session.run pushes).agent.release.drop
        let woken := (session.run busy).agent.release.drop
        quiet.LeftAlike woken ∧ quiet.stats.wakeups = 0 ∧ woken.stats.wakeups = 3 := by
  intro first second pushes held busy
  obtain ⟨ring, hring⟩ : ∃ ring, EventRing.create ⟨1000, by decide⟩ 2 = .ok ring := ⟨_, rfl⟩
  obtain ⟨agent, hstart⟩ : ∃ agent, Agent.start { maxDrainPerWake := 1 } ring
      ({ inner := { failEvery := 2 } } : Recorder CountingSink) = .ok agent := ⟨_, rfl⟩
  obtain ⟨hnotifies, hends, -⟩ :=
    notifies_leave_no_trace hstart (CountingSink.neverPanics.alwaysAnswers _)
  obtain ⟨-, htripled, -⟩ := hnotifies pushes held 2
  refine ⟨ring, agent, hstart, ?_⟩
  cases hring
  cases hstart
  intro session
  have hsame : session.history busy = session.history pushes := rfl
  have hquiet : session.Ends (session.history pushes) 0 (session.run pushes).agent.release.drop :=
    .stopped pushes rfl
  have hwoken : session.Ends (session.history pushes) 3 (session.run busy).agent.release.drop := by
    rw [← hsame]
    exact .stopped busy rfl
  obtain ⟨halike, -, -, hnever, hoften⟩ := hends hquiet hwoken
  have hheld : (session.run busy).agent.worker = .sending first (some 0) := by cbv
  exact ⟨rfl, hsame, hheld, htripled, halike, hnever, hoften⟩

end Session

end Telemetry
