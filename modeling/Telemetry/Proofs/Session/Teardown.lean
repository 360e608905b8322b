import Telemetry.Proofs.Session.Delivery
import Telemetry.Proofs.Session.Ledger
import Telemetry.Proofs.Session.Wakeups

/-!
# Teardown

Wherever its owner's stop meets the worker, there is a last batch between the stop
flag and the return of the worker, and this batch ends with a look at the empty ring.
So everything that was accepted before the stop has been sent when the sink is shut
down, and nobody uses the sink any more.
-/

namespace Telemetry

variable {σ : Type} [Sink σ]

/-! ## What a worker takes before it returns -/

namespace Agent

/-- Of the events accepted so far, a worker that has returned has taken the first
`seen`. -/
structure Owes (agent : Agent (Recorder σ)) (seen : Nat) : Prop where
  seen_le : seen ≤ (agent.handed ++ agent.ring.queued).length
  exited : agent.worker = .exited → seen ≤ agent.handed.length

variable {agent after : Agent (Recorder σ)} {seen : Nat}

/-- A worker returns when nothing is queued, so all that was accepted has been handed
over. -/
theorem Move.owes (h : Move agent after) (howes : Owes agent seen) : Owes after seen where
  seen_le := by
    rw [h.handed_append_queued]
    exact howes.seen_le
  exited := by
    cases h with
    | exit hworker hpop =>
      intro _
      have hhanded : ({ agent with worker := .exited } : Agent (Recorder σ)).handed =
          agent.handed := by
        simp only [handed, inFlight, hworker]
      have hle := howes.seen_le
      rw [(EventRing.pop?_eq_none_iff _).mp hpop, List.append_nil] at hle
      rw [hhanded]
      exact hle
    | _ => intro hexited; cases hexited

theorem Owes.push (h : Owes agent seen) (event : Event) : Owes (agent.push event).2 seen :=
  { h with
    seen_le := by
      have hbalance := Session.handed_append_queued_step { agent } (.push event)
      change (agent.push event).2.handed ++ (agent.push event).2.ring.queued = _ at hbalance
      rw [hbalance, List.length_append]
      exact Nat.le_add_right_of_le h.seen_le }

end Agent

namespace Session

/-- A worker that has returned has taken all that was queued while it had not. -/
theorem taken_of_exited (session : Session (Recorder σ)) (steps : List SessionStep)
    (hworker : session.agent.worker ≠ .exited)
    (hexited : (session.run steps).agent.worker = .exited) :
    ∃ taken,
      (session.run steps).agent.handed =
        session.agent.handed ++ session.agent.ring.queued ++ taken ∧
      session.accepted steps = taken ++ (session.run steps).agent.ring.queued := by
  have howes : (session.run steps).agent.Owes
      (session.agent.handed ++ session.agent.ring.queued).length :=
    agent_run Agent.Move.owes (fun event h => h.push event) (fun _ _ _ _ _ h => { h with })
      ⟨le_rfl, fun hexited => absurd hexited hworker⟩ steps
  exact session.taken_of_length_le steps (howes.exited hexited)

end Session

/-! ## What a session leaves -/

namespace Agent

/-- The agent's sink had got the calls `before` when the session began, then these sends,
all of which it answered, and the shutdown. -/
structure Closed (agent : Agent (Recorder σ)) (before : List SinkCall) (sends : List Send)
    (notifies : Nat) : Prop where
  calls_eq : agent.sink.calls = before ++ sends.map Send.call ++ [.shutdown]
  stats_eq : agent.stats = .tally sends notifies
  answered : AllAnswered sends

variable {agent : Agent (Recorder σ)} {before : List SinkCall} {sends : List Send}
  {notifies : Nat}

/-- Joining a worker that has returned closes the session. -/
theorem Ledger.closed (h : Ledger agent before sends notifies)
    (hworker : agent.worker = .exited) : Closed agent.join before sends notifies where
  calls_eq := by
    rw [join_of_exited hworker, ← h.calls_eq]
    rfl
  stats_eq := by
    rw [stats_join]
    exact h.stats_eq
  answered := by
    apply h.answered
    rw [hworker]
    exact Worker.noConfusion

end Agent

namespace Session

variable {session : Session (Recorder σ)} {before : List SinkCall} {sends : List Send}
  {notifies : Nat}

theorem Gone.closed_run (hgone : session.Gone)
    (h : session.agent.Closed before sends notifies) (steps : List SessionStep) :
    (session.run steps).agent.Closed before sends (notifies + steps.count .notify) := by
  have hbehind := hgone.run steps
  refine ⟨?_, ?_, h.answered⟩
  · rw [hbehind.sink_eq]
    exact h.calls_eq
  · rw [hbehind.stats_eq, h.stats_eq]
    exact Stats.addWakeups_tally sends notifies _

theorem push_not_mem_ending (moves : Nat) (event : Event) : .push event ∉ ending moves := by
  simp [ending]

theorem accepted_ending (session : Session (Recorder σ)) (moves : Nat) :
    session.accepted (ending moves) = [] := by
  rw [← takenOf_history, session.history_of_no_push (push_not_mem_ending moves)]
  rfl

theorem count_notify_ending (moves : Nat) : (ending moves).count .notify = 0 := by
  rw [ending, List.count_append, List.count_replicate]
  rfl

section Start

variable {config : AgentConfig} {ring : EventRing} {recorder : Recorder σ}
  {agent : Agent (Recorder σ)}

/-- Joining a worker that has returned closes the session over everything that was
accepted as long as it had not. -/
theorem closed_of_exited (hstart : Agent.start config ring recorder = .ok agent)
    (steps behind : List SessionStep)
    (hworker : (({ agent } : Session (Recorder σ)).run steps).agent.worker ≠ .exited)
    (hexited : ((({ agent } : Session (Recorder σ)).run steps).run behind).agent.worker =
      .exited) :
    let first : Session (Recorder σ) := { agent }
    let session := first.run steps
    let final := session.run behind
    ∃ sends taken,
      final.agent.join.Closed recorder.calls sends ((steps ++ behind).count .notify) ∧
      sends.map Send.event = ring.queued ++ first.accepted steps ++ taken ∧
      session.accepted behind = taken ++ final.agent.ring.queued := by
  intro first session final
  obtain ⟨taken, -, htaken⟩ := session.taken_of_exited behind hworker hexited
  obtain ⟨sends, hledger, hsends⟩ := ledger_of_start hstart (steps ++ behind)
  have hrun : first.run (steps ++ behind) = final := first.run_append steps behind
  have hinFlight : final.agent.inFlight = [] := Gone.inFlight_eq (.inl hexited)
  rw [hrun] at hledger hsends
  refine ⟨sends, taken, hledger.closed hexited, ?_, htaken⟩
  rw [hinFlight, List.append_nil, first.accepted_append, htaken] at hsends
  simp only [← List.append_assoc] at hsends
  exact List.append_cancel_right hsends

/-- Giving an agent up is a run of its session, in which nobody pushes or notifies, and
the join behind it. -/
theorem drop_eq_join_run (hstart : Agent.start config ring recorder = .ok agent)
    (hsink : AlwaysAnswers recorder) (steps : List SessionStep) :
    let first : Session (Recorder σ) := { agent }
    let session := first.run steps
    session.owner = .holding →
      session.agent.worker ≠ .exited ∧
        ∃ moves,
          let final := session.run (ending moves)
          final.agent.worker = .exited ∧ final.agent.ring.queued = [] ∧
            session.agent.release.drop = final.agent.join := by
  intro first session howner
  obtain ⟨hanswers, hdead⟩ := alwaysAnswers_of_start hstart hsink steps
  have hheld : session.agent.Held := held_of_start hstart steps howner hdead
  obtain ⟨hexited, hqueued⟩ := hheld.ending.settle_or_dead.resolve_right
    (Agent.settle_not_dead hanswers hheld.not_dead)
  obtain ⟨moves, hmoves⟩ := run_ending howner
  refine ⟨hheld.not_exited, moves, ?_⟩
  rw [hmoves]
  exact ⟨hexited, hqueued, hheld.drop_eq⟩

/-- The end of a session, when its sink always answers. -/
theorem closed_of_drop (hstart : Agent.start config ring recorder = .ok agent)
    (hsink : AlwaysAnswers recorder) (steps : List SessionStep) :
    let first : Session (Recorder σ) := { agent }
    let session := first.run steps
    session.owner = .holding →
      let ended := session.agent.release.drop
      ended.worker = .exited ∧ ended.ring.queued = [] ∧
        ∃ sends, ended.Closed recorder.calls sends (steps.count .notify) ∧
          sends.map Send.event = ring.queued ++ first.accepted steps := by
  intro first session howner ended
  obtain ⟨hworker, moves, hexited, hqueued, hdrop⟩ := drop_eq_join_run hstart hsink steps howner
  obtain ⟨sends, taken, hclosed, hsends, htaken⟩ :=
    closed_of_exited hstart steps (ending moves) hworker hexited
  change session.accepted (ending moves) = _ at htaken
  rw [accepted_ending] at htaken
  obtain ⟨htaken, -⟩ := List.append_eq_nil_iff.mp htaken.symm
  change (session.run (ending moves)).agent.join.Closed _ _ _ at hclosed
  change ended = (session.run (ending moves)).agent.join at hdrop
  rw [List.count_append, count_notify_ending, Nat.add_zero, ← hdrop] at hclosed
  rw [htaken, List.append_nil] at hsends
  refine ⟨?_, ?_, sends, hclosed, hsends⟩
  · rw [hdrop, Agent.join_of_exited hexited]
    exact hexited
  · rw [hdrop, Agent.ring_join]
    exact hqueued

/-- The end of a session counts each event that had not been counted before. -/
theorem counted_at_end (hstart : Agent.start config ring recorder = .ok agent)
    (hsink : AlwaysAnswers recorder) (steps : List SessionStep) {ended : Agent (Recorder σ)}
    (hclosed : ended.Closed recorder.calls sends notifies) :
    let first : Session (Recorder σ) := { agent }
    let session := first.run steps
    sends.map Send.event = ring.queued ++ first.accepted steps →
      ended.stats.sent + ended.stats.sendFailures =
        session.agent.stats.sent + session.agent.stats.sendFailures +
          .ofNat (session.agent.inFlight ++ session.agent.ring.queued).length := by
  intro first session hsends
  obtain ⟨others, hledger, hothers⟩ := ledger_of_start hstart steps
  have hanswered : AllAnswered others :=
    hledger.answered (alwaysAnswers_of_start hstart hsink steps).2
  have hlength : sends.length =
      others.length + (session.agent.inFlight ++ session.agent.ring.queued).length := by
    rw [← hsends, List.append_assoc] at hothers
    simpa using (congrArg List.length hothers).symm
  have hbefore : session.agent.stats = .tally others (steps.count .notify) := hledger.stats_eq
  rw [hclosed.stats_eq, hbefore, hclosed.answered.sent_add_sendFailures,
    hanswered.sent_add_sendFailures, hlength, UInt64.ofNat_add]

/-- An owner that has woken the worker for the end waits for one that returns. -/
theorem exits_of_joining (hstart : Agent.start config ring recorder = .ok agent)
    (hsink : AlwaysAnswers recorder) (steps : List SessionStep) :
    let session := ({ agent } : Session (Recorder σ)).run steps
    session.owner = .joining → session.agent.release.settle.worker = .exited := by
  intro session hjoining
  obtain ⟨hanswers, hdead⟩ := alwaysAnswers_of_start hstart hsink steps
  have hsettled : session.agent.release.settle.worker ≠ .dead :=
    Agent.settle_not_dead hanswers hdead
  exact ((flagged_run agent steps).exits_or_dies hjoining).resolve_right hsettled

/-- Wherever the worker is when its owner ends the session, stopping the agent and giving
it up leave the same: every event accepted so far, in this session or before it, has been
sent once and in order, the ring is empty, the sink has been shut down behind the last
send, each event is counted once more, and of the wakeups only the calls of `notify` are.
From there on a `notify` is counted and a push is queued, and nothing else happens.  If the
others go on while the owner ends the session, the worker still returns, and of the events
accepted meanwhile the sink has got the first. -/
theorem drained_and_closed (hstart : Agent.start config ring recorder = .ok agent)
    (hsink : AlwaysAnswers recorder.inner) (steps : List SessionStep) :
    let first : Session (Recorder σ) := { agent }
    let session := first.run steps
    let accepted := ring.queued ++ first.accepted steps
    let ended := session.agent.release.drop
    let behind : Session (Recorder σ) := { agent := ended, owner := .joining }
    session.owner = .holding →
      (session.agent.release.stop = (ended.stats, ended) ∧
        ended.forget = (first.forget.run steps).agent.release.drop ∧
        ended.ring.queued = [] ∧
        ended.stats.sent + ended.stats.sendFailures =
          session.agent.stats.sent + session.agent.stats.sendFailures +
            .ofNat (session.agent.inFlight ++ session.agent.ring.queued).length ∧
        ∃ sends, sends.map Send.event = accepted ∧
          ended.Closed recorder.calls sends (steps.count .notify) ∧
          ∀ later,
            (behind.run later).agent.sink = ended.sink ∧
            (behind.run later).agent.Closed recorder.calls sends
              ((steps ++ later).count .notify) ∧
            (behind.run later).agent.ring.queued = behind.accepted later) ∧
      ∀ meanwhile,
        let flagged := session.step .flag
        let final := flagged.run meanwhile
        (final.owner = .joining → final.agent.release.settle.worker = .exited) ∧
        (final.agent.worker = .exited →
          ∃ sends taken, sends.map Send.event = accepted ++ taken ∧
            flagged.accepted meanwhile = taken ++ final.agent.ring.queued ∧
            final.agent.join.Closed recorder.calls sends
              ((steps ++ meanwhile).count .notify)) := by
  intro first session accepted ended behind howner
  refine ⟨?_, ?_⟩
  · obtain ⟨hworker, hqueued, sends, hclosed, hsends⟩ :=
      closed_of_drop hstart hsink.recorder steps howner
    refine ⟨Agent.stop_eq _, ?_, hqueued,
      counted_at_end hstart hsink.recorder steps hclosed hsends, sends, hsends, hclosed, ?_⟩
    · rw [← forget_run]
      exact Agent.forget_drop _
    · intro later
      have hgone : behind.Gone := .inl hworker
      have hrun := hgone.closed_run hclosed later
      rw [← List.count_append] at hrun
      refine ⟨(hgone.run later).sink_eq, hrun, ?_⟩
      rw [hgone.queued_run]
      change ended.ring.queued ++ _ = _
      rw [hqueued, List.nil_append]
  · intro meanwhile flagged final
    refine ⟨fun hjoining => ?_, fun hexited => ?_⟩
    · have hrun : first.run (steps ++ .flag :: meanwhile) = final :=
        first.run_append steps (.flag :: meanwhile)
      have hexits := exits_of_joining hstart hsink.recorder (steps ++ .flag :: meanwhile)
      rw [← hrun] at hjoining ⊢
      exact hexits hjoining
    · have hheld : session.agent.Held := held_of_start hstart steps howner
        (alwaysAnswers_of_start hstart hsink.recorder steps).2
      obtain ⟨sends, taken, hclosed, hsends, htaken⟩ :=
        closed_of_exited hstart steps (.flag :: meanwhile) hheld.not_exited hexited
      rw [List.count_append, List.count_cons_of_ne SessionStep.noConfusion,
        ← List.count_append] at hclosed
      exact ⟨sends, taken, hsends, htaken, hclosed⟩

end Start

/-- An event of an earlier session, one behind it and one that no `notify` followed; the
sink rejects every second event and holds the first up. -/
theorem drained_behind_stalled_send :
    let leftover : Event := .blank
    let first : Event := { Event.blank with id := 1 }
    let second : Event := { Event.blank with id := 2 }
    ∃ ring agent,
      Agent.start { maxDrainPerWake := 1 } ring
        ({ inner := { failEvery := 2 } } : Recorder CountingSink) = .ok agent ∧
      ring.queued = [leftover] ∧
      let session := ({ agent } : Session (Recorder CountingSink)).run
        [.push first, .notify, .stall, .work, .work, .push second]
      let ended := session.agent.release.drop
      session.agent.worker = .sending leftover (some 0) ∧ session.agent.stalled = true ∧
        ended.ring.queued = [] ∧ session.agent.release.stop = (ended.stats, ended) ∧
        ∃ sends, sends.map Send.event = [leftover, first, second] ∧
          ended.Closed [] sends 1 := by
  intro leftover first second
  obtain ⟨empty, hempty⟩ : ∃ ring, EventRing.create ⟨1000, by decide⟩ 4 = .ok ring := ⟨_, rfl⟩
  obtain ⟨agent, hstart⟩ : ∃ agent, Agent.start { maxDrainPerWake := 1 } (empty.push leftover).2
      ({ inner := { failEvery := 2 } } : Recorder CountingSink) = .ok agent := ⟨_, rfl⟩
  have hleft : (empty.push leftover).2.queued = [leftover] := by
    rw [EventRing.queued_push, (EventRing.queued_of_create hempty).1]
    cases hempty
    rfl
  have hdrained := drained_and_closed hstart (CountingSink.neverPanics.alwaysAnswers _)
    [.push first, .notify, .stall, .work, .work, .push second]
  rw [hleft] at hdrained
  refine ⟨_, agent, hstart, hleft, ?_⟩
  intro session ended
  cases hempty
  cases hstart
  obtain ⟨⟨hstop, -, hqueued, -, sends, hsends, hclosed, -⟩, -⟩ := hdrained rfl
  exact ⟨rfl, rfl, hqueued, hstop, sends, hsends, hclosed⟩

end Session

end Telemetry
