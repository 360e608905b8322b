import Telemetry.Proofs.Session.Delivery
import Telemetry.Proofs.Session.Forwarder

/-!
# Batches cannot be told apart

In a played session the worker is given the time to come to rest behind every
step of the others.  At rest an agent is in the state of a forwarder, whatever
the bound on its batches is, and a step takes the two to the same state again.
So nobody can tell one bound from another, nor a bound from none.
-/

namespace Telemetry

variable {σ : Type} [Sink σ]

/-- The end of the agent is that of the forwarder. -/
structure Agent.EndsAs (agent : Agent σ) (forwarder : Forwarder σ) : Prop where
  ring_eq : agent.drop.ring = forwarder.close.ring
  sink_eq : agent.drop.sink = forwarder.close.sink
  stats_eq : agent.drop.stats = forwarder.close.stats
  stop_eq : agent.stop = (forwarder.close.stats, agent.drop)

/-! ## Playing a session -/

namespace Session

/-- A step of somebody, behind which the worker runs until it is at rest. -/
def play (session : Session σ) (step : SessionStep) : Session σ where
  agent := (session.step step).agent.settle
  owner := (session.step step).owner

def playAll (session : Session σ) (script : List SessionStep) : Session σ :=
  script.foldl play session

/-- The forwarder that the session will look like. -/
def outlook (session : Session σ) : Forwarder σ := session.agent.outlook session.owner

/-- The worker is at rest, and nobody has got in its way. -/
structure Resting (session : Session σ) : Prop where
  step?_eq : session.agent.step? = none
  orderly : session.agent.Orderly session.owner

variable {session : Session σ}

theorem Resting.orderly_step (h : session.Resting) (step : SessionStep) :
    (session.step step).agent.Orderly (session.step step).owner := by
  obtain ⟨agent, owner⟩ := session
  have hrest : agent.step? = none := h.step?_eq
  have horderly : agent.Orderly owner := h.orderly
  have hchecking := Agent.not_checking_of_rest hrest true
  cases step with
  | push event => exact { horderly with emptied := fun hworker => absurd hworker hchecking }
  | notify => exact { horderly with }
  | work =>
    change (agent.step?.getD agent).Orderly owner
    rw [hrest]
    exact horderly
  | stall => exact { horderly with }
  | release => exact { horderly with }
  | flag =>
    cases owner with
    | holding =>
      exact
        { running_iff := by simp [Session.step, Agent.raiseStop]
          stopping_iff := by simp [Session.step, Agent.raiseStop]
          emptied := fun hworker => absurd hworker hchecking
          not_last := by simp [Session.step] }
    | flagged => exact horderly
    | joining => exact horderly
  | wake =>
    cases owner with
    | holding => exact horderly
    | flagged =>
      exact
        { running_iff := by simpa [Session.step, Agent.signal] using horderly.running_iff
          stopping_iff := by simpa [Session.step, Agent.signal] using horderly.stopping_iff
          emptied := fun hworker => absurd hworker hchecking
          not_last := by simp [Session.step] }
    | joining => exact horderly

/-- To a worker at rest and to a forwarder a step means the same. -/
theorem Resting.outlook_step (h : session.Resting) (step : SessionStep) :
    (session.step step).outlook = session.outlook.step step := by
  obtain ⟨agent, owner⟩ := session
  have hrest : agent.step? = none := h.step?_eq
  have howner := Agent.owner_outlook hrest owner
  cases step with
  | push event => exact Agent.outlook_push hrest owner event
  | notify => exact Agent.outlook_notify hrest owner
  | work =>
    change (agent.step?.getD agent).outlook owner = _
    rw [hrest]
    rfl
  | stall => exact Agent.outlook_stall hrest owner
  | release => exact Agent.outlook_release hrest owner
  | flag =>
    simp only [outlook, Forwarder.step, howner]
    cases owner with
    | holding => exact Agent.outlook_of_owner hrest .holding .flagged
    | flagged => rfl
    | joining => rfl
  | wake =>
    simp only [outlook, Forwarder.step, howner]
    cases owner with
    | holding => rfl
    | flagged =>
      rw [← Agent.outlook_of_owner hrest .flagged .joining]
      exact Agent.outlook_signal hrest .joining
    | joining => rfl

theorem Resting.play (h : session.Resting) (step : SessionStep) :
    (session.play step).Resting ∧ (session.play step).outlook = session.outlook.step step := by
  obtain ⟨horderly, houtlook⟩ := (h.orderly_step step).settle
  exact ⟨⟨Agent.step?_settle _, horderly⟩, houtlook.trans (h.outlook_step step)⟩

theorem Resting.playAll (h : session.Resting) (script : List SessionStep) :
    (session.playAll script).Resting ∧
      (session.playAll script).outlook = session.outlook.run script := by
  induction script generalizing session with
  | nil => exact ⟨h, rfl⟩
  | cons step script ih =>
    obtain ⟨hplay, houtlook⟩ := h.play step
    obtain ⟨hrest, hrun⟩ := ih hplay
    rw [houtlook] at hrun
    exact ⟨hrest, hrun⟩

/-- Also the owner's end of a session is that of a forwarder. -/
theorem Resting.endsAs (h : session.Resting) : session.agent.EndsAs session.outlook := by
  obtain ⟨agent, owner⟩ := session
  have hrest : agent.step? = none := h.step?_eq
  have horderly : agent.Orderly owner := h.orderly
  have hends : agent.drop.ring = (agent.outlook owner).close.ring ∧
      agent.drop.sink = (agent.outlook owner).close.sink ∧
      agent.drop.stats = (agent.outlook owner).close.stats := by
    rw [Agent.drop, Forwarder.close, Agent.owner_outlook hrest owner]
    by_cases howner : owner = .holding
    · have hshows := Agent.shows_settle (Agent.orderly_ending hrest)
      rw [Agent.outlook_ending hrest owner] at hshows
      rw [Agent.teardown_of_running (horderly.running_iff.mpr howner), if_pos howner]
      exact hshows.join
    · have hrunning : ¬ agent.running = true := mt horderly.running_iff.mp howner
      have hshows := Agent.shows_outlook hrest owner
      rw [Agent.teardown, if_neg hrunning, if_neg howner]
      exact ⟨hshows.ring_eq, hshows.sink_eq, hshows.stats_eq⟩
  obtain ⟨hring, hsink, hstats⟩ := hends
  exact ⟨hring, hsink, hstats,
    (Agent.stop_eq agent).trans (congrArg (·, agent.drop) hstats)⟩

end Session

/-! ## What can be observed -/

/-- What is to be seen behind a step. -/
structure Observation (σ : Type) where
  /-- The event that the step got into the ring, if it did. -/
  taken : List Event
  ring : EventRing
  sink : σ
  stats : Stats

def Session.observed (session : Session σ) : List SessionStep → List (Observation σ)
  | [] => []
  | step :: script =>
    let after := session.play step
    ⟨session.taken step, after.agent.ring, after.agent.sink, after.agent.stats⟩ ::
      after.observed script

namespace Forwarder

def taken (forwarder : Forwarder σ) : SessionStep → List Event
  | .push event => if (forwarder.ring.push event).1 then [event] else []
  | _ => []

def observed (forwarder : Forwarder σ) : List SessionStep → List (Observation σ)
  | [] => []
  | step :: script =>
    let after := forwarder.step step
    ⟨forwarder.taken step, after.ring, after.sink, after.stats⟩ :: after.observed script

end Forwarder

theorem Session.Resting.observed_eq {session : Session σ} (h : session.Resting)
    (script : List SessionStep) : session.observed script = session.outlook.observed script := by
  induction script generalizing session with
  | nil => rfl
  | cons step script ih =>
    obtain ⟨hplay, houtlook⟩ := h.play step
    have hbefore : session.agent.Shows session.outlook := Agent.shows_outlook h.step?_eq _
    have hafter : (session.play step).agent.Shows (session.play step).outlook :=
      Agent.shows_outlook hplay.step?_eq _
    have htaken : session.taken step = session.outlook.taken step := by
      cases step with
      | push event =>
        change (if (session.agent.ring.push event).1 then [event] else []) = _
        rw [hbefore.ring_eq]
        rfl
      | _ => rfl
    rw [houtlook] at hafter
    rw [observed, Forwarder.observed, ih hplay, houtlook, htaken, hafter.ring_eq,
      hafter.sink_eq, hafter.stats_eq]

/-! ## Taking the recorder out -/

theorem Session.forget_play (session : Session (Recorder σ)) (step : SessionStep) :
    (session.play step).forget = session.forget.play step := by
  rw [play, play, ← forget_step]
  exact congrArg (Session.mk · _) (Agent.forget_settle _)

theorem Session.forget_playAll (session : Session (Recorder σ)) (script : List SessionStep) :
    (session.playAll script).forget = session.forget.playAll script := by
  induction script generalizing session with
  | nil => rfl
  | cons step script ih =>
    change ((session.play step).playAll script).forget = (session.forget.play step).playAll script
    rw [ih, forget_play]

/-! ## Any bound, or none -/

namespace Session

omit [Sink σ] in
/-- The agent of a valid configuration is the forwarder with that ring and sink. -/
theorem resting_of_start {config : AgentConfig} {ring : EventRing} {sink : σ} {agent : Agent σ}
    (h : Agent.start config ring sink = .ok agent) [Sink σ] :
    ({ agent } : Session σ).Resting ∧ ({ agent } : Session σ).outlook = { ring, sink } := by
  have hfresh := Agent.fresh_of_start h
  constructor
  · refine ⟨?_, ?_⟩
    · simp [Agent.step?, hfresh.worker_eq, hfresh.pending_eq]
    · constructor <;>
        simp [hfresh.running_eq, hfresh.stopping_eq, hfresh.worker_eq, Worker.isLast]
  · simp [outlook, Agent.outlook, hfresh.worker_eq, hfresh.pending_eq, hfresh.ring_eq,
      hfresh.sink_eq, hfresh.stats_eq, hfresh.stalled_eq]

/-- Whatever the bounds on their batches, two agents over the same ring and sink show
the same throughout a played session and at its end, and so does a forwarder, which
drains to empty whenever it is woken.  Every drain of an agent ends. -/
theorem drain_limit_unobservable {first second : AgentConfig}
    (hfirst : first.validate = .ok ()) (hsecond : second.validate = .ok ()) (ring : EventRing)
    (sink : σ) (script : List SessionStep) :
    let recorder : Recorder σ := { inner := sink }
    let forwarder : Forwarder (Recorder σ) := { ring, sink := recorder }
    ∃ one two, Agent.start first ring recorder = .ok one ∧
      Agent.start second ring recorder = .ok two ∧
      let left : Session (Recorder σ) := { agent := one }
      let right : Session (Recorder σ) := { agent := two }
      left.observed script = right.observed script ∧
        left.observed script = forwarder.observed script ∧
        (left.playAll script).agent.EndsAs (forwarder.run script) ∧
        (right.playAll script).agent.EndsAs (forwarder.run script) ∧
        (left.playAll script).forget = left.forget.playAll script ∧
        ∀ (session : Session (Recorder σ)) (step : SessionStep),
          (session.play step).agent.step? = none ∧
            ∃ moves, (Rig.busy (session.step step)).run (List.replicate moves (.step .work)) =
              .busy (session.play step) := by
  intro recorder forwarder
  obtain ⟨one, hone⟩ := Agent.start_of_valid hfirst ring recorder
  obtain ⟨two, htwo⟩ := Agent.start_of_valid hsecond ring recorder
  refine ⟨one, two, hone, htwo, ?_⟩
  intro left right
  obtain ⟨hleft, hleftlook⟩ := resting_of_start hone
  obtain ⟨hright, hrightlook⟩ := resting_of_start htwo
  have hobserved : left.observed script = forwarder.observed script := by
    rw [hleft.observed_eq, hleftlook]
  have hobserved' : right.observed script = forwarder.observed script := by
    rw [hright.observed_eq, hrightlook]
  obtain ⟨hleft', hleftrun⟩ := hleft.playAll script
  obtain ⟨hright', hrightrun⟩ := hright.playAll script
  refine ⟨hobserved.trans hobserved'.symm, hobserved, ?_, ?_, forget_playAll left script, ?_⟩
  · have hends := hleft'.endsAs
    rwa [hleftrun, hleftlook] at hends
  · have hends := hright'.endsAs
    rwa [hrightrun, hrightlook] at hends
  · intro session step
    exact ⟨Agent.step?_settle _, Rig.run_work _ _⟩

/-- Four queued events are two batches of two, and more than one of three.  The first
`send` is held up while a fifth event comes, and every second event is rejected. -/
theorem full_batches_over_stalled_send :
    let script : List SessionStep :=
      List.replicate 4 (.push .blank) ++ [.stall, .notify, .push .blank, .release, .notify]
    ∃ ring, EventRing.create ⟨1000, by decide⟩ 4 = .ok ring ∧
      let recorder : Recorder CountingSink := { inner := { failEvery := 2 } }
      ∃ one two, Agent.start { maxDrainPerWake := 2 } ring recorder = .ok one ∧
        Agent.start { maxDrainPerWake := 3 } ring recorder = .ok two ∧
        Session.observed { agent := one } script = Session.observed { agent := two } script ∧
        (Session.playAll { agent := one } script).agent.stop.1 =
          { sent := 3, wakeups := 2, sendFailures := 2 } ∧
        (Session.playAll { agent := two } script).agent.drop.ring.queued = [] := by
  intro script
  obtain ⟨ring, hring⟩ : ∃ ring, EventRing.create ⟨1000, by decide⟩ 4 = .ok ring := ⟨_, rfl⟩
  refine ⟨ring, hring, ?_⟩
  intro recorder
  have hpairs : AgentConfig.validate { maxDrainPerWake := 2 } = .ok () := rfl
  have htriples : AgentConfig.validate { maxDrainPerWake := 3 } = .ok () := rfl
  obtain ⟨one, two, hone, htwo, hobserved, -, hleft, hright, -⟩ :=
    drain_limit_unobservable hpairs htriples ring ({ failEvery := 2 } : CountingSink) script
  refine ⟨one, two, hone, htwo, hobserved, ?_, ?_⟩
  · rw [hleft.stop_eq]
    simp only
    cases hring
    decide +kernel
  · rw [hright.ring_eq]
    cases hring
    decide +kernel

end Session

end Telemetry
