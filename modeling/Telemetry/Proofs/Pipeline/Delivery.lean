import Telemetry.Event.Sample
import Telemetry.Pipeline
import Telemetry.Proofs.Session.Delivery
import Telemetry.Proofs.Session.Pushes
import Telemetry.Proofs.Sink.Collector

/-!
# From the producer to the collector

One account is kept along a whole session over a datagram sink: the accepted
events are those the sink has been handed, the one it is being handed and those
still queued, in this order; the counters tell the events that fit from those
that do not.  At the end only the first part is left, so what has arrived, what
was counted and what was refused all follow from the pushes and their answers.
-/

namespace Telemetry

namespace EventRing

variable {ring rest : EventRing} {event : Event} {handed : List Event}
  {pushes : List (Event × Bool)}

/-- Of the events taken in these pushes, the ring has handed on the first and queues the
others. -/
structure Holds (ring : EventRing) (handed : List Event) (pushes : List (Event × Bool)) : Prop where
  taken_eq : takenOf pushes = handed ++ ring.queued
  dropped_eq : ring.dropped = .ofNat (refusals pushes)

theorem holds_of_create {memory : Memory} {capacity : UInt64}
    (h : create memory capacity = .ok ring) : Holds ring [] [] := by
  obtain ⟨hqueued, -, hdropped⟩ := queued_of_create h
  exact ⟨hqueued.symm, hdropped⟩

theorem Holds.push (h : Holds ring handed pushes) (event : Event) :
    Holds (ring.push event).2 handed (pushes ++ [(event, (ring.push event).1)]) := by
  rcases Nat.lt_or_eq_of_le ring.length_queued_le with hroom | hfull
  · obtain ⟨after, hpush, hqueued, -, hdropped⟩ := queued_push_of_room hroom event
    rw [hpush]
    constructor
    · rw [takenOf_append, h.taken_eq, hqueued, List.append_assoc]
      rfl
    · rw [refusals_append, hdropped, h.dropped_eq]
      rfl
  · rw [push_of_full hfull]
    constructor
    · rw [takenOf_append, h.taken_eq]
      exact List.append_nil _
    · rw [refusals_append, UInt64.ofNat_add, ← h.dropped_eq]
      rfl

theorem Holds.pop (h : Holds ring handed pushes) (hpop : ring.pop? = some (event, rest)) :
    Holds rest (handed ++ [event]) pushes := by
  obtain ⟨hqueued, -, hdropped⟩ := queued_of_pop? hpop
  constructor
  · rw [h.taken_eq, hqueued, List.append_cons]
  · rw [hdropped, h.dropped_eq]

end EventRing

variable {ν : Type} [Network ν] {collector : Collector ν} {before : List Bytes} {limit : Nat}
  {pushes : List (Event × Bool)} {done : List Event}

/-! ## The worker's part -/

namespace Agent

/-- The account of an agent whose sink is done with these events. -/
structure Accounts (collector : Collector ν) (before : List Bytes) (limit : Nat)
    (agent : Agent (DatagramSink ν)) (pushes : List (Event × Bool)) (done : List Event) :
    Prop where
  serves : agent.sink.Serves collector before limit done
  sent_eq : agent.stats.sent = .ofNat (done.countP (·.fits limit))
  sendFailures_eq : agent.stats.sendFailures = .ofNat (done.countP fun event => !event.fits limit)
  holds : agent.ring.Holds (done ++ agent.inFlight) pushes

variable {agent after : Agent (DatagramSink ν)}

/-- A `send` that returns moves its event to those the sink is done with, and the answer
says whether the event fits. -/
theorem Accounts.answered (h : Accounts collector before limit agent pushes done)
    {event : Event} {answer : Answer} {sink : DatagramSink ν}
    (hsend : Sink.send agent.sink event = (answer, sink)) :
    (answer = .accepted ↔ event.fits limit = true) ∧
      sink.Serves collector before limit (done ++ [event]) := by
  have hsending := DatagramSink.sending_send agent.sink event
  change agent.sink.send event = _ at hsend
  rw [hsend] at hsending
  exact h.serves.sending hsending

/-- A move keeps the account.  The ring hands an event on when it is taken, and its `send`
concerns the sink's part alone. -/
theorem Move.accounts (hmove : Move agent after)
    (h : Accounts collector before limit agent pushes done) :
    ∃ done, Accounts collector before limit after pushes done := by
  have hholds := h.holds
  cases hmove with
  | take room event ring hworker hroom hpop =>
    refine ⟨done, { h with holds := ?_ }⟩
    have hrest := hholds.pop hpop
    simpa [inFlight, hworker] using hrest
  | sent event room sink hworker hstalled hsend =>
    obtain ⟨hanswer, hserves⟩ := h.answered hsend
    have hfits : event.fits limit = true := hanswer.mp rfl
    refine ⟨done ++ [event], hserves, ?_, ?_, ?_⟩
    · simp [Stats.addSent, h.sent_eq, hfits, UInt64.ofNat_add]
    · simp [Stats.addSent, h.sendFailures_eq, hfits]
    · simpa [inFlight, hworker] using hholds
  | rejected event room error sink hworker hstalled hsend =>
    obtain ⟨hanswer, hserves⟩ := h.answered hsend
    have hfits : event.fits limit = false := by
      rw [Bool.eq_false_iff, Ne, ← hanswer]
      exact Answer.noConfusion
    refine ⟨done ++ [event], hserves, ?_, ?_, ?_⟩
    · simp [Stats.addSendFailure, h.sent_eq, hfits]
    · simp [Stats.addSendFailure, h.sendFailures_eq, hfits, UInt64.ofNat_add]
    · simpa [inFlight, hworker] using hholds
  | panicked event room sink hworker hstalled hsend =>
    have hanswer := DatagramSink.neverPanics agent.sink event
    rw [hsend] at hanswer
    exact absurd rfl hanswer
  | wake hworker | full hworker | emptied room hworker | exit hworker | stop emptied hworker
  | again hworker | sleep hworker =>
    exact ⟨done, { h with holds := by simpa [inFlight, hworker] using hholds }⟩

theorem accounts_settle (h : ∃ done, Accounts collector before limit agent pushes done) :
    ∃ done, Accounts collector before limit agent.settle pushes done := by
  apply settle_induction (motive := fun agent =>
    ∃ done, Accounts collector before limit agent pushes done) ?_ h
  rintro agent after hmove ⟨done, haccounts⟩
  exact hmove.accounts haccounts

/-- An agent at work, with its account in order and no `send` held up. -/
structure Ready (collector : Collector ν) (before : List Bytes) (limit : Nat)
    (agent : Agent (DatagramSink ν)) (pushes : List (Event × Bool)) : Prop where
  accounts : ∃ done, Accounts collector before limit agent pushes done
  held : agent.Held
  stalled_eq : agent.stalled = false

theorem ready_of_start {config : AgentConfig} {ring : EventRing} {sink : DatagramSink ν}
    (h : start config ring sink = .ok agent) (hserves : sink.Serves collector before limit [])
    (hholds : ring.Holds [] pushes) : Ready collector before limit agent pushes := by
  have hfresh := fresh_of_start h
  refine ⟨⟨[], ?_, ?_, ?_, ?_⟩, hfresh.held, hfresh.stalled_eq⟩
  · rwa [hfresh.sink_eq]
  · rw [hfresh.stats_eq]
    rfl
  · rw [hfresh.stats_eq]
    rfl
  · simpa [inFlight, hfresh.worker_eq, hfresh.ring_eq] using hholds

theorem Ready.notify (h : Ready collector before limit agent pushes) :
    Ready collector before limit agent.notify pushes := by
  obtain ⟨⟨done, haccounts⟩, hheld, hstalled⟩ := h
  exact ⟨⟨done, { haccounts with }⟩, { hheld with }, hstalled⟩

theorem Ready.settle (h : Ready collector before limit agent pushes) :
    Ready collector before limit agent.settle pushes where
  accounts := accounts_settle h.accounts
  held := settle_induction (fun hmove => hmove.held DatagramSink.neverPanics) h.held
  stalled_eq := settle_induction (motive := fun agent => agent.stalled = false)
    (fun hmove hstalled => hmove.stalled_eq.trans hstalled) h.stalled_eq

end Agent

/-! ## The end -/

namespace Pipeline

/-- What pushes with these answers have led to, when all is over. -/
structure Settled (collector : Collector ν) (before : List Bytes) (limit : Nat)
    (pushes : List (Event × Bool)) (stats : Stats) (ring : EventRing) (network : ν) : Prop where
  arrived : ∃ datagrams, collector.received network = before ++ datagrams ∧
    List.Forall₂ Carries datagrams ((takenOf pushes).filter (·.fits limit)).zipIdx
  sent_eq : stats.sent = .ofNat ((takenOf pushes).countP (·.fits limit))
  sendFailures_eq :
    stats.sendFailures = .ofNat ((takenOf pushes).countP fun event => !event.fits limit)
  queued_eq : ring.queued = []
  dropped_eq : ring.dropped = .ofNat (refusals pushes)

end Pipeline

/-- The last drain hands on all that is left, so the account is closed. -/
theorem Agent.Ready.stop {agent : Agent (DatagramSink ν)}
    (h : Ready collector before limit agent pushes) :
    Pipeline.Settled collector before limit pushes agent.stop.1 agent.stop.2.ring
      agent.stop.2.sink.network := by
  have hending : agent.ending.Ending :=
    ending_ending h.stalled_eq h.held.not_dead h.held.not_exited
  obtain ⟨hworker, hqueued⟩ := hending.settle DatagramSink.neverPanics
  obtain ⟨done, hopen⟩ := h.accounts
  obtain ⟨done, haccounts⟩ :
      ∃ done, Accounts collector before limit agent.ending.settle pushes done :=
    accounts_settle ⟨done, { hopen with }⟩
  have htaken : takenOf pushes = done := by
    simpa [inFlight, hworker, hqueued] using haccounts.holds.taken_eq
  rw [stop_eq, drop, teardown_of_running h.held.running_eq, join_of_exited hworker]
  rw [← htaken] at haccounts
  exact ⟨haccounts.serves.arrived, haccounts.sent_eq, haccounts.sendFailures_eq, hqueued,
    haccounts.holds.dropped_eq⟩

/-! ## Sessions -/

namespace Session

variable {session : Session (DatagramSink ν)}

theorem accounts_step (h : session.agent.Accounts collector before limit pushes done)
    (step : SessionStep) :
    ∃ done, (session.step step).agent.Accounts collector before limit
      (pushes ++ session.pushed step) done := by
  obtain ⟨agent, owner⟩ := session
  cases step with
  | push event => exact ⟨done, { h with holds := h.holds.push event }⟩
  | work =>
    rw [← List.append_nil pushes] at h
    change ∃ done, (agent.step?.getD agent).Accounts collector before limit (pushes ++ []) done
    rcases agent.rest_or_move with hrest | hmove
    · rw [hrest]
      exact ⟨done, h⟩
    · exact hmove.accounts h
  | flag | wake =>
    rw [← List.append_nil pushes] at h
    cases owner <;> exact ⟨done, { h with }⟩
  | notify | stall | release =>
    rw [← List.append_nil pushes] at h
    exact ⟨done, { h with }⟩

theorem accounts_run (h : session.agent.Accounts collector before limit pushes done)
    (steps : List SessionStep) :
    ∃ done, (session.run steps).agent.Accounts collector before limit
      (pushes ++ session.history steps) done := by
  induction steps generalizing session pushes done with
  | nil =>
    rw [history, List.append_nil]
    exact ⟨done, h⟩
  | cons step steps ih =>
    obtain ⟨done, hstep⟩ := accounts_step h step
    rw [history, ← List.append_assoc]
    exact ih hstep

end Session

/-! ## Whole pipelines -/

theorem Config.validate_agent {config : Config} (h : config.validate = .ok ()) :
    config.agent.validate = .ok () := by
  rw [validate] at h
  split at h
  · cases h
  split at h
  · cases h
  · assumption

namespace Pipeline

/-- Offered events are taken as long as there is room. -/
theorem accepted_offer (ring : EventRing) (events : List Event) :
    (offer ring events).1 = (List.range events.length).map fun place =>
      decide (ring.queued.length + place < ring.capacity.toNat) := by
  induction events generalizing ring with
  | nil => rfl
  | cons event events ih =>
    rw [List.length_cons, List.range_succ_eq_map, List.map_cons, List.map_map]
    change (ring.push event).1 :: (offer (ring.push event).2 events).1 = _
    rw [EventRing.accepted_push, ih]
    apply congrArg
    apply List.map_congr_left
    intro place _
    rw [Function.comp_apply, decide_eq_decide]
    rcases Nat.lt_or_eq_of_le ring.length_queued_le with hroom | hfull
    · obtain ⟨after, hpush, hqueued, hcapacity, -⟩ := EventRing.queued_push_of_room hroom event
      rw [hpush, hqueued, hcapacity, List.length_append, List.length_singleton]
      omega
    · rw [EventRing.push_of_full hfull]
      change ring.queued.length + place < ring.capacity.toNat ↔ _
      omega

theorem holds_offer {ring : EventRing} (h : ring.Holds [] pushes) (events : List Event) :
    (offer ring events).2.Holds [] (pushes ++ events.zip (offer ring events).1) := by
  induction events generalizing ring pushes with
  | nil => rwa [List.zip_nil_left, List.append_nil]
  | cons event events ih =>
    have hrest := ih (h.push event)
    rwa [List.append_assoc] at hrest

/-- A run whose stages all succeed ends as its agent does. -/
theorem run_eq {memory : Memory} {network : ν} {config : Config} {ring : EventRing}
    {events : List Event} {wakeups : Nat} {sink : DatagramSink ν} {agent : Agent (DatagramSink ν)}
    (hvalid : config.validate = .ok ())
    (hring : EventRing.create memory config.ringCapacity = .ok ring)
    (hinit : DatagramSink.init { network } config.sink = (.ok (), sink))
    (hstart : Agent.start config.agent (offer ring events).2 sink = .ok agent) :
    let (stats, ended) := (Nat.repeat Agent.notify wakeups agent).settle.stop
    run memory network config events wakeups = .ok {
      accepted := (offer ring events).1
      stats
      ring := ended.ring
      sink := ended.sink } := by
  simp only [run, hvalid, hring, hinit, hstart, bind, Except.bind, pure, Except.pure]

/-- From a configuration that validates, a ring that could be created and an endpoint that
connects: whatever is pushed, however the worker is woken and whenever it gets to run in
between, after the stop the collector has got exactly the accepted events that fit, one
frame each and in the order of the pushes, numbered from 0 on modulo 2^32.  The counters
tell these from the accepted events that do not fit, the ring is empty, and its drop
counter is the number of pushes refused.  An event fits if 48 bytes and its payload are
within the limit, which is 512 for a setting of 0 and otherwise the setting, but not more
than 1200. -/
theorem fitting_events_arrive {memory : Memory} {network bound connected : ν} {config : Config}
    {ring : EventRing} (collector : Collector ν) {others : List Address}
    (hvalid : config.validate = .ok ())
    (hring : EventRing.create memory config.ringCapacity = .ok ring)
    (hresolve : Network.resolve network config.sink.endpoint = .ok (collector.peer :: others))
    (hbind : Network.bind network collector.peer.unspecified = (.ok (), bound))
    (hconnect : Network.connect bound collector.peer = (.ok (), connected))
    (hlive : collector.live connected) :
    let before := collector.received connected
    let setting := config.sink.maxDatagramBytes
    let limit := if setting = 0 then 512 else min setting.toNat 1200
    (∀ (events : List Event) (wakeups : Nat), ∃ outcome,
      run memory network config events wakeups = .ok outcome ∧
        outcome.accepted = (List.range events.length).map (fun place =>
          decide (place < config.ringCapacity.toNat)) ∧
        Settled collector before limit (events.zip outcome.accepted) outcome.stats outcome.ring
          outcome.sink.network) ∧
      ∃ sink agent, DatagramSink.init { network } config.sink = (.ok (), sink) ∧
        Agent.start config.agent ring sink = .ok agent ∧
        ∀ steps : List SessionStep,
          let session : Session (DatagramSink ν) := { agent }
          (session.run steps).owner = .holding →
            let (stats, ended) := (session.run steps).agent.release.stop
            Settled collector before limit (session.history steps) stats ended.ring
              ended.sink.network := by
  intro before setting limit
  have hagent : config.agent.validate = .ok () := Config.validate_agent hvalid
  obtain ⟨sink, hinit, hserves⟩ := DatagramSink.serves_of_init hresolve hbind hconnect hlive
  rw [SinkConfig.toNat_datagramLimit] at hserves
  obtain ⟨hempty, hcapacity, -⟩ := EventRing.queued_of_create hring
  have hholds : ring.Holds [] [] := EventRing.holds_of_create hring
  constructor
  · intro events wakeups
    obtain ⟨agent, hstart⟩ := Agent.start_of_valid hagent (offer ring events).2 sink
    have hready : agent.Ready collector before limit (events.zip (offer ring events).1) :=
      Agent.ready_of_start hstart hserves (holds_offer hholds events)
    have hwoken : (Nat.repeat Agent.notify wakeups agent).Ready collector before limit
        (events.zip (offer ring events).1) := by
      induction wakeups with
      | zero => exact hready
      | succ wakeups ih => exact ih.notify
    refine ⟨_, run_eq hvalid hring hinit hstart, ?_, hwoken.settle.stop⟩
    rw [accepted_offer, hempty, hcapacity]
    simp
  · obtain ⟨agent, hstart⟩ := Agent.start_of_valid hagent ring sink
    refine ⟨sink, agent, hinit, hstart, ?_⟩
    intro steps session howner
    have hready : agent.Ready collector before limit [] :=
      Agent.ready_of_start hstart hserves hholds
    have hheld : (session.run steps).HeldByOwner :=
      Session.run_induction (fun step h => h.step DatagramSink.neverPanics step)
        (fun _ => hready.held) steps
    obtain ⟨done, hopen⟩ : ∃ done, session.agent.Accounts collector before limit [] done :=
      hready.accounts
    obtain ⟨done, haccounts⟩ := Session.accounts_run hopen steps
    have hreleased : (session.run steps).agent.release.Ready collector before limit
        (session.history steps) :=
      ⟨⟨done, { haccounts with }⟩, { hheld howner with }, rfl⟩
    exact hreleased.stop

/-- A ring of three is offered four events, and the second is over the limit. -/
theorem arrivals_past_oversized_and_refused :
    let first : Event := .blank
    let third : Event := { Event.blank with id := 2 }
    let events := [first, Event.fullSample 1, third, { Event.blank with id := 3 }]
    let config : Config := { ringCapacity := 3, sink := { maxDatagramBytes := 100 } }
    let peer : Address := { octets := [127, 0, 0, 1], port := 9000 }
    let network : Loopback := { up := true, collector := some peer }
    ∃ outcome, run ⟨1000, by decide⟩ network config events 1 = .ok outcome ∧
      outcome.accepted = [true, true, true, false] ∧
      List.Forall₂ Carries outcome.sink.network.delivered.reverse [(first, 0), (third, 1)] ∧
      outcome.stats.sent = 2 ∧ outcome.stats.sendFailures = 1 ∧
      outcome.ring.queued = [] ∧ outcome.ring.dropped = 1 := by
  intro first third events config peer network
  obtain ⟨ring, hring⟩ : ∃ ring, EventRing.create ⟨1000, by decide⟩ 3 = .ok ring := ⟨_, rfl⟩
  have hresolve : Network.resolve network config.sink.endpoint = .ok [peer] := by
    decide +kernel
  have hvalid : config.validate = .ok () := by
    decide +kernel
  have hbind : Network.bind network peer.unspecified = (.ok (), network) := rfl
  have hconnect : Network.connect network peer = (.ok (), network) := rfl
  obtain ⟨harrives, -⟩ := fitting_events_arrive (Loopback.collecting peer) hvalid hring hresolve
    hbind hconnect ⟨rfl, rfl⟩
  obtain ⟨outcome, hrun, haccepted, hsettled⟩ := harrives events 1
  have hanswers : outcome.accepted = [true, true, true, false] := haccepted
  have hlimit : (if config.sink.maxDatagramBytes = 0 then 512
      else min config.sink.maxDatagramBytes.toNat 1200) = 100 := by
    decide
  rw [hanswers, hlimit] at hsettled
  obtain ⟨datagrams, hdelivered, hcarries⟩ := hsettled.arrived
  have hfitting : (takenOf (events.zip [true, true, true, false])).filter (·.fits 100) =
      [first, third] := by
    decide +kernel
  have hdelivered : outcome.sink.network.delivered.reverse = datagrams := hdelivered
  rw [hfitting, ← hdelivered] at hcarries
  refine ⟨outcome, hrun, hanswers, hcarries, hsettled.sent_eq.trans ?_,
    hsettled.sendFailures_eq.trans ?_, hsettled.queued_eq, hsettled.dropped_eq⟩
  · decide +kernel
  · decide +kernel

end Pipeline

end Telemetry
