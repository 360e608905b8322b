import Telemetry.Proofs.Session.Schedules

/-!
# A single batch

A batch takes the front of the queue as far as its bound goes, sends each of these events
once and in order, and counts how the sink answered.  It has seen the ring empty only if
it has looked for an event behind the last one: a batch that reaches its bound just where
the queue ends has not, and the next one finds nothing to send.

The others may notify, hold up a `send` and ask for the end meanwhile.  What they do and
what the batch does have nothing to do with each other, so a batch in between their steps
leaves what it would leave behind all of them.
-/

namespace Telemetry

namespace Worker

/-- How many events the worker may still take in the batch that it is in. -/
def room? : Worker → Option (Option Nat)
  | .draining room | .sending _ room => some room
  | _ => none

/-- Whether a batch that is over has seen the ring empty. -/
def sawEmpty? : Worker → Option Bool
  | .checking emptied => some emptied
  | .exited => some true
  | _ => none

/-- Where a batch over so many queued events leaves the worker. -/
def behindBatch (limit : Option Nat) (queued : Nat) : Worker :=
  match limit with
  | some limit => .checking (decide (queued < limit))
  | none => .exited

theorem sawEmpty?_behindBatch (limit : Option Nat) (queued : Nat) :
    (behindBatch limit queued).sawEmpty? = some (decide (∀ bound ∈ limit, queued < bound)) := by
  cases limit <;> simp [behindBatch, sawEmpty?]

end Worker

/-- The events that a batch with this bound takes. -/
def EventRing.front (ring : EventRing) : Option Nat → List Event
  | some limit => ring.queued.take limit
  | none => ring.queued

namespace Stats

/-- The counters behind these sends. -/
def addSends (stats : Stats) (sends : List Send) : Stats :=
  { stats with
    sent := stats.sent + .ofNat (sends.countP Send.accepted)
    sendFailures := stats.sendFailures + .ofNat (sends.countP Send.rejected) }

theorem addSends_nil (stats : Stats) : stats.addSends [] = stats := by
  simp [addSends]

theorem addSends_accepted (stats : Stats) (event : Event) :
    stats.addSends [⟨event, .accepted⟩] = stats.addSent := by
  simp [addSends, addSent, Send.accepted, Send.rejected]

theorem addSends_rejected (stats : Stats) (event : Event) (error : Error) :
    stats.addSends [⟨event, .rejected error⟩] = stats.addSendFailure := by
  simp [addSends, addSendFailure, Send.accepted, Send.rejected]

theorem addSends_append (stats : Stats) (first others : List Send) :
    stats.addSends (first ++ others) = (stats.addSends first).addSends others := by
  simp [addSends, UInt64.ofNat_add, UInt64.add_assoc]

end Stats

variable {σ : Type} [Sink σ]

/-! ## Sinks -/

/-- A recorder answers every `send` as its sink does. -/
theorem Recorder.sends_eq (recorder : Recorder σ) (events : List Event) :
    Sink.sends recorder events = Sink.sends recorder.inner events := by
  induction events generalizing recorder with
  | nil => rfl
  | cons event events ih => exact congrArg (List.cons _) (ih (Sink.send recorder event).2)

theorem AlwaysAnswers.allAnswered_sends {sink : σ} (h : AlwaysAnswers sink)
    (events : List Event) : AllAnswered (Sink.sends sink events) := by
  induction events generalizing sink with
  | nil => exact fun _ hmem => absurd hmem List.not_mem_nil
  | cons event events ih =>
    intro send hmem
    rcases List.mem_cons.mp hmem with rfl | hmem
    · have hanswer := (h.send event).1
      rw [Send.panicked]
      split
      · next hpanicked => exact absurd hpanicked hanswer
      · rfl
    · exact ih (h.send event).2 send hmem

/-! ## The worker in a batch -/

namespace Agent

/-- `agent` is what `start` becomes when its worker takes these events and sends them. -/
structure Forwarded (start agent : Agent σ) (sent : List Event) : Prop where
  eq : agent =
    { start with
      ring := agent.ring
      sink := Sink.afterSends start.sink sent
      stats := start.stats.addSends (Sink.sends start.sink sent)
      worker := agent.worker }
  queued_eq : start.ring.queued = sent ++ agent.inFlight ++ agent.ring.queued
  ring_counts_eq : agent.ring.capacity = start.ring.capacity ∧
    agent.ring.dropped = start.ring.dropped

theorem Forwarded.frame {start agent : Agent σ} {sent : List Event}
    (h : Forwarded start agent sent) :
    agent =
      { start with
        ring := agent.ring
        sink := agent.sink
        stats := agent.stats
        worker := agent.worker } := by
  have hsink := congrArg Agent.sink h.eq
  have hstats := congrArg Agent.stats h.eq
  rw [hsink, hstats]
  exact h.eq

/-- The worker is in a batch that it has begun at `start`: what it has taken and what it
may still take make up the bound. -/
structure InBatch (start agent : Agent σ) (limit : Option Nat) (sent : List Event) : Prop
    extends Forwarded start agent sent where
  limit_eq : agent.worker.room?.map (·.map (· + (sent ++ agent.inFlight).length)) = some limit

/-- The worker is behind a batch that it has begun at `start`. -/
structure BehindBatch (start agent : Agent σ) (limit : Option Nat) : Prop
    extends Forwarded start agent (start.ring.front limit) where
  worker_eq : agent.worker = .behindBatch limit start.ring.queued.length

variable {start agent after : Agent σ} {limit : Option Nat} {sent : List Event}

omit [Sink σ] in
theorem inFlight_of_behindBatch {queued : Nat}
    (hworker : agent.worker = .behindBatch limit queued) : agent.inFlight = [] := by
  rw [inFlight, hworker]
  cases limit <;> rfl

theorem inBatch_of_draining (hworker : agent.worker = .draining limit) :
    InBatch agent agent limit [] where
  eq := by
    rw [Sink.sends, Stats.addSends_nil]
    rfl
  queued_eq := by simp [inFlight, hworker]
  ring_counts_eq := ⟨rfl, rfl⟩
  limit_eq := by simp [inFlight, Worker.room?, hworker]

theorem InBatch.isSome_room? (h : InBatch start agent limit sent) :
    agent.worker.room?.isSome := by
  have hlimit := congrArg Option.isSome h.limit_eq
  simpa using hlimit

theorem InBatch.not_dead (h : InBatch start agent limit sent) : agent.worker ≠ .dead := by
  intro hworker
  have hroom := h.isSome_room?
  rw [hworker] at hroom
  cases hroom

theorem BehindBatch.isNone_room? (h : BehindBatch start agent limit) :
    agent.worker.room?.isNone := by
  rw [h.worker_eq]
  cases limit <;> rfl

/-- An event that is sent is counted as it is answered. -/
theorem InBatch.send {event : Event} {room : Option Nat} {answer : Answer} {sink : σ}
    (h : InBatch start agent limit sent) (hworker : agent.worker = .sending event room)
    (hsend : Sink.send agent.sink event = (answer, sink)) :
    InBatch start
      { agent with
        sink
        stats := agent.stats.addSends [⟨event, answer⟩]
        worker := .draining room }
      limit (sent ++ [event]) where
  eq := by
    have hsink : agent.sink = Sink.afterSends start.sink sent := congrArg Agent.sink h.eq
    have hstats : agent.stats = start.stats.addSends (Sink.sends start.sink sent) :=
      congrArg Agent.stats h.eq
    rw [Sink.afterSends_append_singleton, Sink.sends_append_singleton, Stats.addSends_append,
      ← hsink, ← hstats, hsend]
    exact congrArg (fun before : Agent σ =>
      { before with
        sink
        stats := agent.stats.addSends [⟨event, answer⟩]
        worker := .draining room }) h.eq
  queued_eq := by
    rw [h.queued_eq]
    simp [inFlight, hworker]
  ring_counts_eq := h.ring_counts_eq
  limit_eq := by
    have hlimit := h.limit_eq
    simpa [inFlight, Worker.room?, hworker] using hlimit

/-- A worker that may go on has sent all that it took. -/
theorem InBatch.of_draining {room : Option Nat} (h : InBatch start agent limit sent)
    (hworker : agent.worker = .draining room) :
    limit = room.map (· + sent.length) ∧ start.ring.queued = sent ++ agent.ring.queued := by
  have hlimit := h.limit_eq
  have hqueued := h.queued_eq
  simp only [inFlight, hworker, List.append_nil] at hlimit hqueued
  exact ⟨(Option.some.inj hlimit).symm, hqueued⟩

/-- When it has sent all that the bound lets it take, the batch is over. -/
theorem InBatch.behind {room : Option Nat} {worker : Worker} (h : InBatch start agent limit sent)
    (hworker : agent.worker = .draining room) (hfront : start.ring.front limit = sent)
    (hover : worker = .behindBatch limit start.ring.queued.length) :
    BehindBatch start { agent with worker } limit where
  eq := by
    rw [hfront]
    exact congrArg (fun before : Agent σ => { before with worker }) h.eq
  queued_eq := by
    have hnone : ({ agent with worker } : Agent σ).inFlight = [] :=
      inFlight_of_behindBatch hover
    rw [hfront, hnone, List.append_nil]
    exact (h.of_draining hworker).2
  ring_counts_eq := h.ring_counts_eq
  worker_eq := hover

/-- A move of a worker in a batch goes on with the batch, or it is the last of it.  An
event that is taken takes up one of the places that the bound has left. -/
theorem Move.inBatch_or_behind (h : Move agent after) (hbatch : InBatch start agent limit sent)
    (hdead : after.worker ≠ .dead) :
    (∃ sent, InBatch start after limit sent) ∨ BehindBatch start after limit := by
  have hroom := hbatch.isSome_room?
  cases h with
  | take room event ring hworker hbound hpop =>
    obtain ⟨hlimit, hqueued⟩ := hbatch.of_draining hworker
    obtain ⟨hfront, hcounts⟩ := EventRing.queued_of_pop? hpop
    refine .inl ⟨sent, ⟨?_, ?_, ?_⟩, ?_⟩
    · exact congrArg (fun before : Agent σ =>
        { before with ring, worker := .sending event (room.map (· - 1)) }) hbatch.eq
    · simp [inFlight, hqueued, hfront]
    · rw [hcounts.1, hcounts.2]
      exact hbatch.ring_counts_eq
    · have hplace : (room.map (· - 1)).map (· + (sent.length + 1)) = limit := by
        rw [hlimit]
        cases room with
        | none => rfl
        | some room =>
          have hpos : room ≠ 0 := fun hzero => hbound (congrArg some hzero)
          change some (room - 1 + (sent.length + 1)) = some (room + sent.length)
          congr 1
          omega
      simp only [inFlight, Worker.room?, List.length_append, List.length_singleton]
      exact congrArg some hplace
  | sent event room sink hworker hstalled hsend =>
    have hsent := hbatch.send hworker hsend
    rw [Stats.addSends_accepted] at hsent
    exact .inl ⟨_, hsent⟩
  | rejected event room error sink hworker hstalled hsend =>
    have hsent := hbatch.send hworker hsend
    rw [Stats.addSends_rejected] at hsent
    exact .inl ⟨_, hsent⟩
  | panicked event room sink hworker hstalled hsend => exact absurd rfl hdead
  | full hworker =>
    obtain ⟨hlimit, hqueued⟩ := hbatch.of_draining hworker
    refine .inr (hbatch.behind hworker ?_ ?_)
    · simp [EventRing.front, hlimit, hqueued]
    · simp [Worker.behindBatch, hlimit, hqueued]
  | emptied room hworker hpop =>
    obtain ⟨hlimit, hqueued⟩ := hbatch.of_draining hworker
    rw [(EventRing.pop?_eq_none_iff _).mp hpop, List.append_nil] at hqueued
    refine .inr (hbatch.behind hworker ?_ ?_)
    · simp [EventRing.front, hlimit, hqueued]
    · simp [Worker.behindBatch, hlimit, hqueued]
  | exit hworker hpop =>
    obtain ⟨hlimit, hqueued⟩ := hbatch.of_draining hworker
    rw [(EventRing.pop?_eq_none_iff _).mp hpop, List.append_nil] at hqueued
    refine .inr (hbatch.behind hworker ?_ ?_)
    · simp [EventRing.front, hlimit, hqueued]
    · simp [Worker.behindBatch, hlimit]
  | wake hworker | stop _ hworker | again hworker | sleep hworker =>
    rw [hworker] at hroom
    cases hroom

end Agent

/-! ## A batch among the steps of the others -/

/-- The steps that the worker does not take. -/
def SessionStep.others (steps : List SessionStep) : List SessionStep := steps.filter (· ≠ .work)

theorem SessionStep.others_cons (step : SessionStep) (steps : List SessionStep) :
    others (step :: steps) = others [step] ++ others steps :=
  List.filter_append [step] steps

namespace Session

/-- The batch that the worker is in is over behind these steps, and not before. -/
def endsBatch (session : Session σ) : List SessionStep → Bool
  | [] => session.agent.worker.room?.isNone
  | step :: steps => session.agent.worker.room?.isSome && (session.step step).endsBatch steps

/-- Whatever the others do, unless they push, the batch that the worker is in ends once
no `send` is held up. -/
def FinishesBatch (session : Session σ) : Prop :=
  ∀ steps, (∀ event, .push event ∉ steps) →
    ∃ moves during, during <+: steps ++ .release :: List.replicate moves .work ∧
      session.endsBatch during = true

/-- The worker is in a batch that it has begun at `start`. -/
structure InBatch (start session : Session σ) (limit : Option Nat) (sent : List Event) :
    Prop where
  owner_eq : session.owner = start.owner
  agent : start.agent.InBatch session.agent limit sent

/-- The worker is behind a batch that it has begun at `start`. -/
structure BehindBatch (start session : Session σ) (limit : Option Nat) : Prop where
  owner_eq : session.owner = start.owner
  agent : start.agent.BehindBatch session.agent limit

variable {start session : Session σ} {limit : Option Nat} {sent : List Event}

/-- It makes no difference whether the others act before a batch or in the middle of it. -/
theorem InBatch.step_others {step : SessionStep} (h : start.InBatch session limit sent)
    (hwork : step ≠ .work) (hpush : ∀ event, step ≠ .push event) :
    (start.step step).InBatch (session.step step) limit sent := by
  obtain ⟨start, owner⟩ := start
  obtain ⟨agent, other⟩ := session
  obtain ⟨howner, hagent⟩ := h
  cases howner
  cases step with
  | push event => exact absurd rfl (hpush event)
  | work => exact absurd rfl hwork
  | notify => exact ⟨rfl, { hagent with eq := congrArg Agent.notify hagent.eq }⟩
  | stall => exact ⟨rfl, { hagent with eq := congrArg Agent.stall hagent.eq }⟩
  | release => exact ⟨rfl, { hagent with eq := congrArg Agent.release hagent.eq }⟩
  | flag =>
    cases owner with
    | holding =>
      exact ⟨rfl, { hagent with
        eq := congrArg (fun agent => { agent with running := false }.raiseStop) hagent.eq }⟩
    | flagged | joining => exact ⟨rfl, hagent⟩
  | wake =>
    cases owner with
    | flagged => exact ⟨rfl, { hagent with eq := congrArg Agent.signal hagent.eq }⟩
    | holding | joining => exact ⟨rfl, hagent⟩

/-- A step of anybody goes on with the batch, or it is the last of it. -/
theorem InBatch.step (h : start.InBatch session limit sent)
    (hsink : AlwaysAnswers session.agent.sink) {step : SessionStep}
    (hpush : ∀ event, step ≠ .push event) :
    (∃ sent, (start.run (SessionStep.others [step])).InBatch (session.step step) limit sent) ∨
      (start.run (SessionStep.others [step])).BehindBatch (session.step step) limit := by
  by_cases hwork : step = .work
  · subst hwork
    change (∃ sent, start.InBatch (session.step .work) limit sent) ∨
      start.BehindBatch (session.step .work) limit
    rcases session.agent.rest_or_move with hrest | hmove
    · left
      rw [Session.step, hrest]
      exact ⟨sent, h⟩
    · have hdead := (hmove.alwaysAnswers hsink).2
      rcases hmove.inBatch_or_behind h.agent hdead with ⟨sent, hagent⟩ | hagent
      · exact .inl ⟨sent, h.owner_eq, hagent⟩
      · exact .inr ⟨h.owner_eq, hagent⟩
  · have hothers : SessionStep.others [step] = [step] := by
      simp [SessionStep.others, hwork]
    rw [hothers]
    exact .inl ⟨sent, h.step_others hwork hpush⟩

/-- A worker that is in no batch has none to end. -/
theorem eq_nil_of_endsBatch {steps : List SessionStep}
    (hroom : session.agent.worker.room?.isNone) (hends : session.endsBatch steps = true) :
    steps = [] := by
  cases steps with
  | nil => rfl
  | cons step steps =>
    rw [endsBatch, ← Option.not_isNone, hroom] at hends
    cases hends

/-- When the batch is over it has taken the front of the queue, whatever the others have
done meanwhile. -/
theorem InBatch.behind_of_endsBatch (h : start.InBatch session limit sent)
    (hsink : AlwaysAnswers session.agent.sink) {steps : List SessionStep}
    (hpush : ∀ event, .push event ∉ steps) (hends : session.endsBatch steps = true) :
    (start.run (SessionStep.others steps)).BehindBatch (session.run steps) limit := by
  induction steps generalizing start session sent with
  | nil =>
    have hroom := h.agent.isSome_room?
    rw [← Option.not_isNone] at hroom
    rw [endsBatch] at hends
    rw [hends] at hroom
    cases hroom
  | cons step steps ih =>
    obtain ⟨hstep, hsteps⟩ := SessionStep.not_push_of_cons hpush
    rw [endsBatch, Bool.and_eq_true] at hends
    rw [SessionStep.others_cons, run_append]
    rcases h.step hsink hstep with ⟨sent, hbatch⟩ | hbehind
    · have hanswers := (alwaysAnswers_step hsink h.agent.not_dead step).1
      exact ih hbatch hanswers hsteps hends.2
    · cases eq_nil_of_endsBatch hbehind.agent.isNone_room? hends.2
      exact hbehind

/-! ## Every batch ends -/

/-- Left alone, a worker ends its batch: only a `send` that is held up could keep it there. -/
theorem exists_endsBatch_work {start agent : Agent σ}
    (h : start.InBatch agent limit sent) (hsink : AlwaysAnswers agent.sink)
    (hstalled : agent.stalled = false) (owner : Owner) :
    ∃ moves, ({ agent, owner } : Session σ).endsBatch (List.replicate moves .work) = true := by
  induction agent using Agent.settle.induct generalizing sent with
  | case1 agent after hstep ih =>
    have hmove := Agent.move_of_step? hstep
    obtain ⟨hanswers, hdead⟩ := hmove.alwaysAnswers hsink
    have hwork : ({ agent, owner } : Session σ).step .work = { agent := after, owner } := by
      rw [step, hstep]
      rfl
    have hends (moves : Nat)
        (hafter : ({ agent := after, owner } : Session σ).endsBatch
          (List.replicate moves .work) = true) :
        ({ agent, owner } : Session σ).endsBatch (List.replicate (moves + 1) .work) = true := by
      rw [List.replicate_succ, endsBatch, hwork, hafter, Bool.and_true]
      exact h.isSome_room?
    rcases hmove.inBatch_or_behind h hdead with ⟨sent, hbatch⟩ | hbehind
    · obtain ⟨moves, hmoves⟩ := ih hbatch hanswers (hmove.stalled_eq.trans hstalled)
      exact ⟨moves + 1, hends moves hmoves⟩
    · exact ⟨1, hends 0 hbehind.isNone_room?⟩
  | case2 agent hstep =>
    have hroom := h.isSome_room?
    cases Agent.atRest_of_step? hstep with
    | sending event room hworker hset =>
      rw [hstalled] at hset
      cases hset
    | waiting hworker | exited hworker | dead hworker =>
      rw [hworker] at hroom
      cases hroom

theorem InBatch.finishesBatch (h : start.InBatch session limit sent)
    (hsink : AlwaysAnswers session.agent.sink) : session.FinishesBatch := by
  intro steps hpush
  induction steps generalizing start session sent with
  | nil =>
    obtain ⟨agent, owner⟩ := session
    have hrelease := h.step_others (SessionStep.noConfusion : SessionStep.release ≠ .work)
      fun _ => SessionStep.noConfusion
    obtain ⟨moves, hmoves⟩ := exists_endsBatch_work hrelease.agent hsink rfl owner
    refine ⟨moves, .release :: List.replicate moves .work, List.prefix_rfl, ?_⟩
    rw [endsBatch, h.agent.isSome_room?, Bool.true_and]
    exact hmoves
  | cons step steps ih =>
    obtain ⟨hstep, hsteps⟩ := SessionStep.not_push_of_cons hpush
    rcases h.step hsink hstep with ⟨sent, hbatch⟩ | hbehind
    · have hanswers := (alwaysAnswers_step hsink h.agent.not_dead step).1
      obtain ⟨moves, during, hfront, hends⟩ := ih hbatch hanswers hsteps
      refine ⟨moves, step :: during, (List.prefix_cons_inj step).mpr hfront, ?_⟩
      rw [endsBatch, h.agent.isSome_room?, hends]
      rfl
    · refine ⟨0, [step], (List.prefix_cons_inj step).mpr List.nil_prefix, ?_⟩
      rw [endsBatch, h.agent.isSome_room?]
      exact hbehind.agent.isNone_room?

/-! ## What a batch does -/

/-- Of what a batch uses, a step of the others changes the counter of the wakeups only. -/
theorem run_others_singleton (session : Session σ) {step : SessionStep}
    (hpush : ∀ event, step ≠ .push event) :
    let after := (session.run (SessionStep.others [step])).agent
    after.ring = session.agent.ring ∧ after.sink = session.agent.sink ∧
      after.stats = session.agent.stats.addWakeups ([step].count .notify) := by
  obtain ⟨agent, owner⟩ := session
  have hnone : agent.stats = agent.stats.addWakeups 0 := agent.stats.addWakeups_zero.symm
  cases step with
  | push event => exact absurd rfl (hpush event)
  | notify => exact ⟨rfl, rfl, rfl⟩
  | flag | wake => cases owner <;> exact ⟨rfl, rfl, hnone⟩
  | work | stall | release => exact ⟨rfl, rfl, hnone⟩

theorem run_others (session : Session σ) {steps : List SessionStep}
    (hpush : ∀ event, .push event ∉ steps) :
    let after := (session.run (SessionStep.others steps)).agent
    after.ring = session.agent.ring ∧ after.sink = session.agent.sink ∧
      after.stats = session.agent.stats.addWakeups (steps.count .notify) := by
  induction steps generalizing session with
  | nil => exact ⟨rfl, rfl, session.agent.stats.addWakeups_zero.symm⟩
  | cons step steps ih =>
    intro after
    obtain ⟨hstep, hsteps⟩ := SessionStep.not_push_of_cons hpush
    obtain ⟨hring, hsink, hstats⟩ := session.run_others_singleton hstep
    obtain ⟨hring', hsink', hstats'⟩ := ih (session.run (SessionStep.others [step])) hsteps
    subst after
    rw [SessionStep.others_cons, run_append, SessionStep.count_notify_cons,
      ← Stats.addWakeups_addWakeups, ← hstats]
    exact ⟨hring'.trans hring, hsink'.trans hsink, hstats'⟩

/-- What a batch leaves of what there was when it began. -/
theorem BehindBatch.effect {steps : List SessionStep}
    (h : (start.run (SessionStep.others steps)).BehindBatch session limit)
    (hpush : ∀ event, .push event ∉ steps) :
    let taken := start.agent.ring.front limit
    session.agent.ring.queued = start.agent.ring.queued.drop taken.length ∧
      session.agent.ring.capacity = start.agent.ring.capacity ∧
      session.agent.ring.dropped = start.agent.ring.dropped ∧
      session.agent.sink = Sink.afterSends start.agent.sink taken ∧
      session.agent.stats = (start.agent.stats.addSends
        (Sink.sends start.agent.sink taken)).addWakeups (steps.count .notify) ∧
      session.agent.worker = .behindBatch limit start.agent.ring.queued.length := by
  intro taken
  obtain ⟨hring, hsink, hstats⟩ := start.run_others hpush
  have hworker := h.agent.worker_eq
  have hqueued := h.agent.queued_eq
  obtain ⟨hcapacity, hdropped⟩ := h.agent.ring_counts_eq
  have hsink' := congrArg Agent.sink h.agent.eq
  have hstats' := congrArg Agent.stats h.agent.eq
  rw [hring] at hworker hqueued hcapacity hdropped
  simp only [hring, hsink, hstats] at hsink' hstats'
  rw [Agent.inFlight_of_behindBatch hworker, List.append_nil] at hqueued
  refine ⟨?_, hcapacity, hdropped, hsink', hstats', hworker⟩
  rw [hqueued, List.drop_left]

/-- A batch over an empty ring sends nothing and, if its bound lets it look for an event,
sees that there is none. -/
theorem batch_over_empty_ring (session : Session σ) {limit : Option Nat}
    (hlimit : limit ≠ some 0) (hqueued : session.agent.ring.queued = [])
    (hsink : AlwaysAnswers session.agent.sink) :
    let begun : Session σ :=
      { session with agent := { session.agent with worker := .draining limit } }
    begun.FinishesBatch ∧ ∀ steps, (∀ event, .push event ∉ steps) →
      begun.endsBatch steps = true →
      let after := (begun.run steps).agent
      after.ring.queued = [] ∧ after.sink = session.agent.sink ∧
        after.stats = session.agent.stats.addWakeups (steps.count .notify) ∧
        after.worker.sawEmpty? = some true := by
  intro begun
  have hbatch : begun.InBatch begun limit [] := ⟨rfl, Agent.inBatch_of_draining rfl⟩
  refine ⟨hbatch.finishesBatch hsink, ?_⟩
  intro steps hpush hends after
  have hbehind := hbatch.behind_of_endsBatch hsink hpush hends
  obtain ⟨hleft, -, -, hsink', hstats, hover⟩ := hbehind.effect hpush
  have hqueue : begun.agent.ring.queued = [] := hqueued
  have hfront : begun.agent.ring.front limit = [] := by
    cases limit <;> simp [EventRing.front, hqueue]
  have hroom : ∀ bound ∈ limit, 0 < bound := by
    rintro bound rfl
    exact Nat.pos_of_ne_zero fun hzero => hlimit (congrArg some hzero)
  rw [hfront] at hleft hsink' hstats
  refine ⟨hleft.trans hqueue, hsink', ?_, ?_⟩
  · rw [hstats, Sink.sends, Stats.addSends_nil]
  · rw [hover, hqueue, Worker.sawEmpty?_behindBatch]
    exact congrArg some (decide_eq_true hroom)

/-- A batch that nobody pushes into ends, and it has taken the front of the queue, all of
it or as many events as its bound says, and sent each of them once and in order.  The rest
of the queue stays as it was, every answer is counted, and all else is as the others
made it.  The batch has seen the ring empty if it had no bound or one that the queue did
not reach.  If the queue went just as far as the bound, it has not, and the next batch
sends nothing and does. -/
theorem batch_takes_front {session : Session (Recorder σ)} {limit : Option Nat}
    (hworker : session.agent.worker = .draining limit)
    (hsink : AlwaysAnswers session.agent.sink.inner) :
    let recorder := session.agent.sink
    let queue := session.agent.ring.queued
    let taken := session.agent.ring.front limit
    let sends := Sink.sends recorder.inner taken
    session.FinishesBatch ∧ ∀ steps, (∀ event, .push event ∉ steps) →
      session.endsBatch steps = true →
      let others := session.run (SessionStep.others steps)
      let after := session.run steps
      after.forget = session.forget.run steps ∧
      after.agent.ring.queued = queue.drop taken.length ∧
      after.agent.ring.capacity = session.agent.ring.capacity ∧
      after.agent.ring.dropped = session.agent.ring.dropped ∧
      after.agent.sink.inner = Sink.afterSends recorder.inner taken ∧
      after.agent.sink.calls = recorder.calls ++ sends.map Send.call ∧
      sends.map Send.event = taken ∧ AllAnswered sends ∧
      after.agent.stats =
        (session.agent.stats.addSends sends).addWakeups (steps.count .notify) ∧
      after = { others with
        agent := { others.agent with
          ring := after.agent.ring
          sink := after.agent.sink
          stats := after.agent.stats
          worker := after.agent.worker } } ∧
      after.agent.worker.sawEmpty? = some (decide (∀ bound ∈ limit, queue.length < bound)) ∧
      (limit = some queue.length →
        after.agent.worker = .checking false ∧ ∀ next, next ≠ some 0 →
          let again : Session (Recorder σ) :=
            { after with agent := { after.agent with worker := .draining next } }
          again.FinishesBatch ∧ ∀ later, (∀ event, .push event ∉ later) →
            again.endsBatch later = true →
            let final := (again.run later).agent
            final.ring.queued = [] ∧ final.sink = after.agent.sink ∧
              final.stats = after.agent.stats.addWakeups (later.count .notify) ∧
              final.worker.sawEmpty? = some true) := by
  intro recorder queue taken sends
  have hbatch : session.InBatch session limit [] := ⟨rfl, Agent.inBatch_of_draining hworker⟩
  refine ⟨hbatch.finishesBatch hsink.recorder, ?_⟩
  intro steps hpush hends others after
  have hbehind : others.BehindBatch after limit :=
    hbatch.behind_of_endsBatch hsink.recorder hpush hends
  obtain ⟨hqueued, hcapacity, hdropped, hcalls, hstats, hover⟩ := hbehind.effect hpush
  refine ⟨forget_run session steps, hqueued, hcapacity, hdropped, ?_, ?_,
    Sink.map_event_sends _ _, hsink.allAnswered_sends _, ?_, ?_, ?_, ?_⟩
  · rw [hcalls, Recorder.inner_afterSends]
  · rw [hcalls, Recorder.calls_afterSends]
  · rw [hstats, Recorder.sends_eq]
  · exact congrArg₂ Session.mk hbehind.agent.frame hbehind.owner_eq
  · rw [hover, Worker.sawEmpty?_behindBatch]
  · intro hlimit
    have htaken : taken = queue := by
      change session.agent.ring.front limit = _
      rw [hlimit]
      exact List.take_length
    change after.agent.ring.queued = queue.drop taken.length at hqueued
    rw [htaken, List.drop_length] at hqueued
    refine ⟨?_, fun next hnext => batch_over_empty_ring after hnext hqueued ?_⟩
    · rw [hover, hlimit, Worker.behindBatch, decide_eq_false (lt_irrefl _)]
    · rw [hcalls]
      exact hsink.recorder.afterSends _

/-- Two events are a full batch.  The first `send` is held up while the owner begins to end
the session; the second is rejected. -/
theorem full_batch_among_others :
    let first : Event := .blank
    let second : Event := { Event.blank with id := 1 }
    ∃ ring agent, EventRing.create ⟨1000, by decide⟩ 2 = .ok ring ∧
      Agent.start { maxDrainPerWake := 2 } ring
        ({ inner := { failEvery := 2 } } : Recorder CountingSink) = .ok agent ∧
      let session := ({ agent } : Session (Recorder CountingSink)).run
        [.push first, .push second, .notify, .work]
      let steps := [.work, .stall, .work, .notify, .flag, .release, .work, .work, .work, .work]
      let after := session.run steps
      session.agent.worker = .draining (some 2) ∧ session.endsBatch steps = true ∧
        after.agent.ring.queued = [] ∧
        after.agent.sink.calls.filterMap SinkCall.event? = [first, second] ∧
        after.agent.stats = { sent := 1, wakeups := 2, sendFailures := 1 } ∧
        after.agent.worker = .checking false ∧
        let again : Session (Recorder CountingSink) :=
          { after with agent := { after.agent with worker := .draining (some 1) } }
        (again.step .work).agent.sink = after.agent.sink ∧
          (again.step .work).agent.worker.sawEmpty? = some true := by
  intro first second
  obtain ⟨ring, hring⟩ : ∃ ring, EventRing.create ⟨1000, by decide⟩ 2 = .ok ring := ⟨_, rfl⟩
  obtain ⟨agent, hstart⟩ : ∃ agent, Agent.start { maxDrainPerWake := 2 } ring
      ({ inner := { failEvery := 2 } } : Recorder CountingSink) = .ok agent := ⟨_, rfl⟩
  refine ⟨ring, agent, hring, hstart, ?_⟩
  cases hring
  cases hstart
  intro session steps after
  have hworker : session.agent.worker = .draining (some 2) := rfl
  have hqueue : session.agent.ring.queued = [first, second] := by
    subst session first second
    decide +kernel
  have hpush : ∀ event, .push event ∉ steps := by simp [steps]
  have hends : session.endsBatch steps = true := by
    subst session steps
    decide +kernel
  obtain ⟨-, hbatch⟩ := batch_takes_front hworker (CountingSink.neverPanics.alwaysAnswers _)
  obtain ⟨-, hleft, -, -, -, hcalls, hsent, -, hstats, -, -, hfull⟩ := hbatch steps hpush hends
  have htaken : session.agent.ring.front (some 2) = [first, second] := by
    rw [EventRing.front, hqueue]
    rfl
  have hbefore : session.agent.sink.calls = [] := rfl
  obtain ⟨hchecking, hnext⟩ := hfull (by rw [hqueue]; rfl)
  obtain ⟨-, hagain⟩ := hnext (some 1) (by decide)
  have hlook : Session.endsBatch
      { after with agent := { after.agent with worker := .draining (some 1) } } [.work] = true := by
    subst after session steps first second
    decide +kernel
  obtain ⟨-, hsame, -, hempty⟩ := hagain [.work] (by simp) hlook
  refine ⟨hworker, hends, ?_, ?_, ?_, hchecking, hsame, hempty⟩
  · rw [hleft, htaken, hqueue]
    rfl
  · rw [hcalls, hbefore, List.nil_append, filterMap_event?_call, hsent, htaken]
  · rw [hstats, htaken]
    subst session steps first second
    decide +kernel

end Session

end Telemetry
