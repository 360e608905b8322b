import Telemetry.Proofs.Session.Batches
import Telemetry.Proofs.Session.Ledger

/-!
# Wakeups coalesce

Nobody reads the counter of the wakeups, so adding to it commutes with whatever happens.  A
`notify` right behind another one either finds a wakeup pending or wakes a worker that has
just seen the ring empty.  In both cases it adds its own count and nothing else.
-/

namespace Telemetry

/-- A step that only counts when it is repeated at once. -/
theorem foldl_replicate_succ {State Step : Type} {apply : State → Step → State} {step : Step}
    {count : State → Nat → State} (hzero : ∀ state, count state 0 = state)
    (hadd : ∀ state first others, count (count state first) others = count state (first + others))
    (hagain : ∀ state, apply (apply state step) step = count (apply state step) 1)
    (state : State) (extra : Nat) :
    (List.replicate (extra + 1) step).foldl apply state = count (apply state step) extra := by
  induction extra generalizing state with
  | zero => exact (hzero _).symm
  | succ extra ih =>
    rw [List.replicate_succ, List.foldl_cons, ih, hagain, hadd, Nat.add_comm]

variable {σ : Type} [Sink σ]

theorem Stats.addWakeup_eq (stats : Stats) : stats.addWakeup = stats.addWakeups 1 := rfl

/-- The order in which wakeups are counted does not matter. -/
theorem Stats.addWakeups_comm (stats : Stats) (first second : Nat) :
    (stats.addWakeups first).addWakeups second = (stats.addWakeups second).addWakeups first := by
  rw [addWakeups_addWakeups, addWakeups_addWakeups, Nat.add_comm]

/-! ## Steps one by one -/

namespace Agent

/-- The agent with so many wakeups more on its counter. -/
def addWakeups (agent : Agent σ) (extra : Nat) : Agent σ :=
  { agent with stats := agent.stats.addWakeups extra }

theorem finishSend_addWakeups (agent : Agent σ) (extra : Nat) (event : Event)
    (room : Option Nat) :
    (agent.addWakeups extra).finishSend event room =
      (agent.finishSend event room).addWakeups extra := by
  have hsink : (agent.addWakeups extra).sink = agent.sink := rfl
  rw [finishSend, finishSend, hsink]
  rcases Sink.send agent.sink event with ⟨answer, sink⟩
  cases answer <;> rfl

omit [Sink σ] in
theorem drain_addWakeups (agent : Agent σ) (extra : Nat) (room : Option Nat) :
    (agent.addWakeups extra).drain room = (agent.drain room).addWakeups extra := by
  have hring : (agent.addWakeups extra).ring = agent.ring := rfl
  rw [drain, drain, hring]
  split
  · rfl
  · cases agent.ring.pop? <;> rfl

/-- The worker does not look at the counter. -/
theorem step?_addWakeups (agent : Agent σ) (extra : Nat) :
    (agent.addWakeups extra).step? = agent.step?.map (·.addWakeups extra) := by
  have hworker : (agent.addWakeups extra).worker = agent.worker := rfl
  have hpending : (agent.addWakeups extra).pending = agent.pending := rfl
  have hstalled : (agent.addWakeups extra).stalled = agent.stalled := rfl
  rw [step?, step?, hworker, hpending, hstalled]
  cases agent.worker with
  | waiting => cases agent.pending <;> rfl
  | draining room => exact congrArg some (drain_addWakeups agent extra room)
  | sending event room =>
    cases agent.stalled with
    | false => exact congrArg some (finishSend_addWakeups agent extra event room)
    | true => rfl
  | checking emptied => rfl
  | exited => rfl
  | dead => rfl

end Agent

namespace Session

def addWakeups (session : Session σ) (extra : Nat) : Session σ :=
  { session with agent := session.agent.addWakeups extra }

omit [Sink σ] in
theorem addWakeups_zero (session : Session σ) : session.addWakeups 0 = session := by
  rw [addWakeups, Agent.addWakeups, Stats.addWakeups_zero]

omit [Sink σ] in
theorem addWakeups_addWakeups (session : Session σ) (first others : Nat) :
    (session.addWakeups first).addWakeups others = session.addWakeups (first + others) := by
  rw [addWakeups, addWakeups, Agent.addWakeups, Agent.addWakeups, Stats.addWakeups_addWakeups]
  rfl

/-- Nor does anybody else. -/
theorem step_addWakeups (session : Session σ) (extra : Nat) (step : SessionStep) :
    (session.addWakeups extra).step step = (session.step step).addWakeups extra := by
  obtain ⟨agent, owner⟩ := session
  cases step with
  | notify =>
    have hstats : (agent.stats.addWakeups extra).addWakeups 1 =
        (agent.stats.addWakeups 1).addWakeups extra := Stats.addWakeups_comm _ _ _
    simp only [addWakeups, step, Agent.addWakeups, Agent.notify, Stats.addWakeup_eq, hstats,
      Agent.signal]
  | work =>
    have hstep : (addWakeups { agent, owner } extra).agent.step? =
        agent.step?.map (·.addWakeups extra) := agent.step?_addWakeups extra
    rw [step, step, hstep]
    cases agent.step? <;> rfl
  | flag | wake => cases owner <;> rfl
  | push event => rfl
  | stall | release => rfl

theorem run_addWakeups (session : Session σ) (extra : Nat) (steps : List SessionStep) :
    (session.addWakeups extra).run steps = (session.run steps).addWakeups extra :=
  List.foldl_hom (addWakeups · extra) fun session step => step_addWakeups session extra step

theorem history_addWakeups (session : Session σ) (extra : Nat) (steps : List SessionStep) :
    (session.addWakeups extra).history steps = session.history steps := by
  induction steps generalizing session with
  | nil => rfl
  | cons step steps ih =>
    have hpushed : (session.addWakeups extra).pushed step = session.pushed step := by
      cases step <;> rfl
    rw [history, history, step_addWakeups, ih, hpushed]

/-- A wakeup that is pending does not become so again. -/
theorem notify_notify (session : Session σ) :
    (session.step .notify).step .notify = (session.step .notify).addWakeups 1 := rfl

theorem run_replicate_notify (session : Session σ) (extra : Nat) :
    session.run (List.replicate (extra + 1) .notify) =
      (session.step .notify).addWakeups extra :=
  foldl_replicate_succ addWakeups_zero addWakeups_addWakeups notify_notify session extra

/-- Whatever goes on around them, several calls of `notify` in one place are one call that
is counted several times. -/
theorem run_notifies (session : Session σ) (before behind : List SessionStep) (extra : Nat) :
    session.run (before ++ List.replicate (extra + 1) .notify ++ behind) =
      (session.run (before ++ .notify :: behind)).addWakeups extra := by
  rw [run_append, run_append, run_append, run_replicate_notify, run_addWakeups]
  rfl

theorem history_notifies (session : Session σ) (before behind : List SessionStep) (extra : Nat) :
    session.history (before ++ List.replicate (extra + 1) .notify ++ behind) =
      session.history (before ++ .notify :: behind) := by
  have hpush : ∀ event, .push event ∉ List.replicate (extra + 1) SessionStep.notify := by
    simp
  rw [history_append, history_append, history_append, history_of_no_push _ hpush, run_append,
    run_replicate_notify, history_addWakeups, List.append_nil]
  rfl

end Session

/-! ## Played sessions -/

namespace Forwarder

omit [Sink σ] in
/-- A drain is over when nothing is queued, or it goes on behind the oldest event. -/
theorem drain_induction {motive : Forwarder σ → Prop}
    (hempty : ∀ {forwarder}, forwarder.ring.pop? = none → motive forwarder)
    (hpop : ∀ {forwarder event ring}, forwarder.ring.pop? = some (event, ring) →
      (∀ sink stats, motive { forwarder with ring, sink, stats }) → motive forwarder)
    (forwarder : Forwarder σ) : motive forwarder := by
  induction hcount : forwarder.ring.count.toNat generalizing forwarder with
  | zero =>
    refine hempty ((EventRing.pop?_eq_none_iff _).mpr ?_)
    exact (EventRing.queued_eq_nil_iff _).mpr hcount
  | succ count ih =>
    cases hnext : forwarder.ring.pop? with
    | none => exact hempty hnext
    | some next =>
      have hless := EventRing.count_of_pop? hnext
      exact hpop hnext fun sink stats => ih _ (Nat.succ_injective (hless.trans hcount))

/-- The forwarder with so many wakeups more on its counter. -/
def addWakeups (forwarder : Forwarder σ) (extra : Nat) : Forwarder σ :=
  { forwarder with stats := forwarder.stats.addWakeups extra }

omit [Sink σ] in
theorem addWakeups_zero (forwarder : Forwarder σ) : forwarder.addWakeups 0 = forwarder := by
  rw [addWakeups, Stats.addWakeups_zero]

omit [Sink σ] in
theorem addWakeups_addWakeups (forwarder : Forwarder σ) (first others : Nat) :
    (forwarder.addWakeups first).addWakeups others = forwarder.addWakeups (first + others) :=
  congrArg (fun stats => { forwarder with stats }) (Stats.addWakeups_addWakeups _ _ _)

theorem resume_addWakeups_of_drain (forwarder : Forwarder σ) {extra : Nat}
    (hdrain : ∀ sink stats, ({ forwarder with sink, stats }.addWakeups extra).drain =
      ({ forwarder with sink, stats } : Forwarder σ).drain.addWakeups extra) (event : Event) :
    (forwarder.addWakeups extra).resume event = (forwarder.resume event).addWakeups extra := by
  have hsink : (forwarder.addWakeups extra).sink = forwarder.sink := rfl
  have hstalled : (forwarder.addWakeups extra).stalled = forwarder.stalled := rfl
  rw [resume, resume, hsink, hstalled]
  split
  · rfl
  · rcases Sink.send forwarder.sink event with ⟨answer, sink⟩
    cases answer with
    | accepted => exact hdrain sink forwarder.stats.addSent
    | rejected error => exact hdrain sink forwarder.stats.addSendFailure
    | panicked => rfl

variable (forwarder : Forwarder σ) (extra : Nat)

theorem drain_addWakeups :
    (forwarder.addWakeups extra).drain = forwarder.drain.addWakeups extra := by
  induction forwarder using drain_induction with
  | @hempty forwarder hnone =>
    have hnone' : (forwarder.addWakeups extra).ring.pop? = none := hnone
    rw [drain_of_empty hnone, drain_of_empty hnone']
    rfl
  | @hpop forwarder event ring hsome ih =>
    have hsome' : (forwarder.addWakeups extra).ring.pop? = some (event, ring) := hsome
    rw [drain_of_pop? hsome, drain_of_pop? hsome']
    exact resume_addWakeups_of_drain { forwarder with ring } ih event

theorem resume_addWakeups (event : Event) :
    (forwarder.addWakeups extra).resume event = (forwarder.resume event).addWakeups extra :=
  resume_addWakeups_of_drain forwarder (fun _ _ => drain_addWakeups _ extra) event

theorem wake_addWakeups :
    (forwarder.addWakeups extra).wake = forwarder.wake.addWakeups extra := by
  have hplace : (forwarder.addWakeups extra).place = forwarder.place := rfl
  rw [wake, wake, hplace]
  cases forwarder.place with
  | asleep => exact drain_addWakeups forwarder extra
  | held event | returned | dead => rfl

theorem release_addWakeups :
    (forwarder.addWakeups extra).release = forwarder.release.addWakeups extra := by
  have hplace : (forwarder.addWakeups extra).place = forwarder.place := rfl
  rw [release, release, hplace]
  cases forwarder.place with
  | held event =>
    exact resume_addWakeups { forwarder with stalled := false, place := .asleep } extra event
  | asleep | returned | dead => rfl

theorem step_addWakeups (step : SessionStep) :
    (forwarder.addWakeups extra).step step = (forwarder.step step).addWakeups extra := by
  have howner : (forwarder.addWakeups extra).owner = forwarder.owner := rfl
  cases step with
  | notify =>
    have hstats := Stats.addWakeups_comm forwarder.stats extra 1
    rw [Forwarder.step, Forwarder.step, ← wake_addWakeups]
    exact congrArg (fun stats => ({ forwarder with stats } : Forwarder σ).wake) hstats
  | release => exact release_addWakeups forwarder extra
  | flag =>
    rw [Forwarder.step, Forwarder.step, howner]
    cases forwarder.owner <;> rfl
  | wake =>
    rw [Forwarder.step, Forwarder.step, howner]
    cases forwarder.owner with
    | flagged => exact wake_addWakeups { forwarder with owner := .joining } extra
    | holding | joining => rfl
  | push event | work | stall => rfl

/-- Behind a drain there is nothing to be woken for. -/
theorem wake_drain : forwarder.drain.wake = forwarder.drain := by
  induction forwarder using drain_induction with
  | @hempty forwarder hnone =>
    rw [drain_of_empty hnone]
    by_cases howner : forwarder.owner = .holding
    · have hasleep : ({ forwarder with place := .asleep } : Forwarder σ).ring.pop? = none := hnone
      rw [if_pos howner]
      exact (drain_of_empty hasleep).trans (by rw [if_pos howner])
    · rw [if_neg howner]
      rfl
  | @hpop forwarder event ring hsome ih =>
    rw [drain_of_pop? hsome, resume]
    split
    · rfl
    · split
      · exact ih _ _
      · exact ih _ _
      · rfl

theorem wake_wake : forwarder.wake.wake = forwarder.wake := by
  cases hplace : forwarder.place with
  | asleep =>
    have hwake : forwarder.wake = forwarder.drain := by rw [wake, hplace]
    rw [hwake, wake_drain]
  | held event | returned | dead => simp only [wake, hplace]

/-- Whoever slept has been woken by the first call. -/
theorem notify_notify :
    (forwarder.step .notify).step .notify = (forwarder.step .notify).addWakeups 1 := by
  change ((forwarder.step .notify).addWakeups 1).wake = _
  rw [wake_addWakeups]
  exact congrArg (addWakeups · 1) (wake_wake _)

end Forwarder

/-- The same with so many wakeups more on the counter. -/
def Observation.addWakeups (observation : Observation σ) (extra : Nat) : Observation σ :=
  { observation with stats := observation.stats.addWakeups extra }

omit [Sink σ] in
theorem Observation.addWakeups_zero (observation : Observation σ) :
    observation.addWakeups 0 = observation := by
  rw [addWakeups, Stats.addWakeups_zero]

omit [Sink σ] in
theorem Observation.addWakeups_addWakeups (observation : Observation σ) (first others : Nat) :
    (observation.addWakeups first).addWakeups others = observation.addWakeups (first + others) :=
  congrArg (fun stats => { observation with stats }) (Stats.addWakeups_addWakeups _ _ _)

namespace Forwarder

/-- What is to be seen behind a `notify`. -/
def notified (forwarder : Forwarder σ) : Observation σ :=
  let after := forwarder.step .notify
  ⟨[], after.ring, after.sink, after.stats⟩

theorem run_append (forwarder : Forwarder σ) (script behind : List SessionStep) :
    forwarder.run (script ++ behind) = (forwarder.run script).run behind :=
  List.foldl_append

theorem run_addWakeups (forwarder : Forwarder σ) (extra : Nat) (script : List SessionStep) :
    (forwarder.addWakeups extra).run script = (forwarder.run script).addWakeups extra :=
  List.foldl_hom (addWakeups · extra) fun forwarder step => step_addWakeups forwarder extra step

theorem observed_append (forwarder : Forwarder σ) (script behind : List SessionStep) :
    forwarder.observed (script ++ behind) =
      forwarder.observed script ++ (forwarder.run script).observed behind := by
  induction script generalizing forwarder with
  | nil => rfl
  | cons step script ih =>
    rw [List.cons_append, observed, observed, ih]
    rfl

theorem observed_addWakeups (forwarder : Forwarder σ) (extra : Nat)
    (script : List SessionStep) :
    (forwarder.addWakeups extra).observed script =
      (forwarder.observed script).map (·.addWakeups extra) := by
  induction script generalizing forwarder with
  | nil => rfl
  | cons step script ih =>
    have htaken : (forwarder.addWakeups extra).taken step = forwarder.taken step := by
      cases step <;> rfl
    rw [observed, observed, step_addWakeups, ih, htaken]
    rfl

theorem run_replicate_notify (forwarder : Forwarder σ) (extra : Nat) :
    forwarder.run (List.replicate (extra + 1) .notify) =
      (forwarder.step .notify).addWakeups extra :=
  foldl_replicate_succ addWakeups_zero addWakeups_addWakeups notify_notify forwarder extra

theorem run_notifies (forwarder : Forwarder σ) (before behind : List SessionStep) (extra : Nat) :
    forwarder.run (before ++ List.replicate (extra + 1) .notify ++ behind) =
      (forwarder.run (before ++ .notify :: behind)).addWakeups extra := by
  rw [run_append, run_append, run_append, run_replicate_notify, run_addWakeups]
  rfl

/-- Of several calls of `notify` in one place only the first shows more than its count. -/
theorem observed_replicate_notify (forwarder : Forwarder σ) (times : Nat) :
    forwarder.observed (List.replicate times .notify) =
      (List.range times).map forwarder.notified.addWakeups := by
  induction times generalizing forwarder with
  | zero => rfl
  | succ times ih =>
    have hnext : (forwarder.step .notify).notified = forwarder.notified.addWakeups 1 := by
      rw [notified, notify_notify]
      rfl
    have hshift : (List.range times).map (forwarder.notified.addWakeups 1).addWakeups =
        (List.range times).map (forwarder.notified.addWakeups ∘ Nat.succ) := by
      congr 1
      funext extra
      rw [Observation.addWakeups_addWakeups, Nat.add_comm]
      rfl
    rw [List.replicate_succ, observed, ih, hnext, hshift, List.range_succ_eq_map, List.map_cons,
      List.map_map, Observation.addWakeups_zero]
    rfl

/-- The push that a step is, if it is one, with its answer. -/
def pushed (forwarder : Forwarder σ) : SessionStep → List (Event × Bool)
  | .push event => [(event, (forwarder.ring.push event).1)]
  | _ => []

/-- The pushes of a script, in order, each with its answer. -/
def answers (forwarder : Forwarder σ) : List SessionStep → List (Event × Bool)
  | [] => []
  | step :: script => forwarder.pushed step ++ (forwarder.step step).answers script

theorem answers_append (forwarder : Forwarder σ) (script behind : List SessionStep) :
    forwarder.answers (script ++ behind) =
      forwarder.answers script ++ (forwarder.run script).answers behind := by
  induction script generalizing forwarder with
  | nil => rfl
  | cons step script ih =>
    rw [List.cons_append, answers, answers, ih, List.append_assoc]
    rfl

theorem answers_addWakeups (forwarder : Forwarder σ) (extra : Nat)
    (script : List SessionStep) :
    (forwarder.addWakeups extra).answers script = forwarder.answers script := by
  induction script generalizing forwarder with
  | nil => rfl
  | cons step script ih =>
    have hpushed : (forwarder.addWakeups extra).pushed step = forwarder.pushed step := by
      cases step <;> rfl
    rw [answers, answers, step_addWakeups, ih, hpushed]

theorem answers_replicate_notify (forwarder : Forwarder σ) (times : Nat) :
    forwarder.answers (List.replicate times .notify) = [] := by
  induction times generalizing forwarder with
  | zero => rfl
  | succ times ih => exact ih (forwarder.step .notify)

theorem answers_notifies (forwarder : Forwarder σ) (before behind : List SessionStep)
    (extra : Nat) :
    forwarder.answers (before ++ List.replicate (extra + 1) .notify ++ behind) =
      forwarder.answers (before ++ .notify :: behind) := by
  rw [answers_append, answers_append, answers_append, answers_replicate_notify, run_append,
    run_replicate_notify, answers_addWakeups, List.append_nil]
  rfl

theorem observed_notifies (forwarder : Forwarder σ) (before behind : List SessionStep)
    (extra : Nat) :
    ∃ shown later,
      forwarder.observed (before ++ .notify :: behind) =
        forwarder.observed before ++ shown :: later ∧
      forwarder.observed (before ++ List.replicate (extra + 1) .notify ++ behind) =
        forwarder.observed before ++ (List.range (extra + 1)).map shown.addWakeups ++
          later.map (·.addWakeups extra) := by
  refine ⟨(forwarder.run before).notified, ((forwarder.run before).step .notify).observed behind,
    observed_append _ _ _, ?_⟩
  rw [observed_append, observed_append, observed_replicate_notify, run_append,
    run_replicate_notify, observed_addWakeups]

end Forwarder

namespace Session

/-- The pushes of a played script, in order, each with its answer. -/
def answers (session : Session σ) : List SessionStep → List (Event × Bool)
  | [] => []
  | step :: script => session.pushed step ++ (session.play step).answers script

theorem Resting.answers_eq {session : Session σ} (h : session.Resting)
    (script : List SessionStep) : session.answers script = session.outlook.answers script := by
  induction script generalizing session with
  | nil => rfl
  | cons step script ih =>
    obtain ⟨hplay, houtlook⟩ := h.play step
    have hring : session.agent.ring = session.outlook.ring :=
      (Agent.shows_outlook h.step?_eq _).ring_eq
    have hpushed : session.pushed step = session.outlook.pushed step := by
      cases step with
      | push event =>
        change [(event, (session.agent.ring.push event).1)] = _
        rw [hring]
        rfl
      | _ => rfl
    rw [answers, Forwarder.answers, ih hplay, houtlook, hpushed]

/-- Also in a played session, where the worker runs between any two of them. -/
theorem Resting.notifies {session : Session σ} (h : session.Resting)
    (before behind : List SessionStep) (extra : Nat) :
    let once := before ++ .notify :: behind
    let often := before ++ List.replicate (extra + 1) .notify ++ behind
    (session.playAll often).outlook = (session.playAll once).outlook.addWakeups extra ∧
      session.answers often = session.answers once ∧
      ∃ shown later,
        session.observed once = session.observed before ++ shown :: later ∧
        session.observed often =
          session.observed before ++ (List.range (extra + 1)).map shown.addWakeups ++
            later.map (·.addWakeups extra) := by
  intro once often
  rw [(h.playAll often).2, (h.playAll once).2, h.answers_eq, h.answers_eq, h.observed_eq,
    h.observed_eq, h.observed_eq]
  exact ⟨session.outlook.run_notifies before behind extra,
    session.outlook.answers_notifies before behind extra,
    session.outlook.observed_notifies before behind extra⟩

end Session

end Telemetry
