import Telemetry.Proofs.Session.Ledger
import Telemetry.Proofs.Sink.Counting
import Telemetry.Sink.Faulty

/-!
# Books over many sessions

Every session counts from zero, the ring and the sink count on.  Books keep an entry for
each session, with its counters and the sends they are about, so that all that was ever
pushed can be found again: answered, lost in a panic, being sent, queued or refused.
-/

namespace Telemetry

/-! ## Sends in a record -/

/-- The `send` that a call is, if it is one. -/
def SinkCall.send? : SinkCall → Option Send
  | send event answer => some ⟨event, answer⟩
  | _ => none

theorem filterMap_send?_call (sends : List Send) :
    (sends.map Send.call).filterMap SinkCall.send? = sends := by
  rw [List.filterMap_map]
  exact List.filterMap_some

namespace Recorder

/-- The sends so far, in the order in which they came. -/
def sends {σ : Type} (recorder : Recorder σ) : List Send :=
  recorder.calls.filterMap SinkCall.send?

theorem handed_eq_map_sends {σ : Type} (recorder : Recorder σ) :
    recorder.handed = recorder.sends.map Send.event := by
  rw [handed, sends, List.map_filterMap]
  congr 1
  funext call
  cases call <;> rfl

theorem sends_of_send {σ : Type} [Sink σ] (recorder : Recorder σ) (event : Event) :
    (Sink.send recorder event).2.sends =
      recorder.sends ++ [⟨event, (Sink.send recorder.inner event).1⟩] := by
  rw [send_eq rfl, sends, sends, List.filterMap_append]
  rfl

theorem sends_shutdown {σ : Type} [Sink σ] (recorder : Recorder σ) :
    (Sink.shutdown recorder).sends = recorder.sends := by
  change (recorder.calls ++ [SinkCall.shutdown]).filterMap SinkCall.send? = _
  rw [List.filterMap_append]
  exact List.append_nil _

end Recorder

variable {σ : Type} [Sink σ]

namespace Agent

omit [Sink σ] in
theorem Ledger.sends_eq {agent : Agent (Recorder σ)} {before : List SinkCall}
    {sends : List Send} {notifies : Nat} (h : agent.Ledger before sends notifies) :
    agent.sink.sends = before.filterMap SinkCall.send? ++ sends := by
  rw [Recorder.sends, h.calls_eq, List.filterMap_append, filterMap_send?_call]

theorem sends_join (agent : Agent (Recorder σ)) : agent.join.sink.sends = agent.sink.sends := by
  rw [join]
  split
  · exact agent.sink.sends_shutdown
  · rfl

end Agent

/-! ## Entries -/

/-- What a session has counted, and the sends of its worker. -/
structure Entry where
  stats : Stats
  sends : List Send

namespace Entry

/-- The counters are those of the sends. -/
structure Exact (entry : Entry) : Prop where
  sent_eq : entry.stats.sent = .ofNat (entry.sends.countP Send.accepted)
  sendFailures_eq : entry.stats.sendFailures = .ofNat (entry.sends.countP Send.rejected)

/-- Neither counter has gone round. -/
structure Unwrapped (entry : Entry) : Prop where
  accepted_lt : entry.sends.countP Send.accepted < 2 ^ 64
  rejected_lt : entry.sends.countP Send.rejected < 2 ^ 64

end Entry

theorem sum_map_ofNat (counts : List Nat) :
    (counts.map UInt64.ofNat).sum = .ofNat counts.sum := by
  induction counts with
  | nil => rfl
  | cons count counts ih => rw [List.map_cons, List.sum_cons, ih, List.sum_cons, UInt64.ofNat_add]

section Sums

variable {entries : List Entry}

/-- Exact counters add up, as words. -/
theorem sum_of_exact (h : ∀ entry ∈ entries, entry.Exact) :
    (entries.map fun entry => entry.stats.sent).sum =
        .ofNat ((entries.flatMap Entry.sends).countP Send.accepted) ∧
      (entries.map fun entry => entry.stats.sendFailures).sum =
        .ofNat ((entries.flatMap Entry.sends).countP Send.rejected) := by
  rw [List.countP_flatMap, List.countP_flatMap, ← sum_map_ofNat, ← sum_map_ofNat,
    List.map_map, List.map_map]
  constructor
  · congr 1
    exact List.map_congr_left fun entry hmem => (h entry hmem).sent_eq
  · congr 1
    exact List.map_congr_left fun entry hmem => (h entry hmem).sendFailures_eq

/-- As long as they do not go round, they add up to the number of the sends. -/
theorem sum_toNat_of_exact (h : ∀ entry ∈ entries, entry.Exact)
    (hunwrapped : ∀ entry ∈ entries, entry.Unwrapped) :
    (entries.map fun entry => entry.stats.sent.toNat).sum =
        (entries.flatMap Entry.sends).countP Send.accepted ∧
      (entries.map fun entry => entry.stats.sendFailures.toNat).sum =
        (entries.flatMap Entry.sends).countP Send.rejected := by
  rw [List.countP_flatMap, List.countP_flatMap]
  constructor
  · congr 1
    refine List.map_congr_left fun entry hmem => ?_
    rw [(h entry hmem).sent_eq, UInt64.toNat_ofNat_of_lt' (hunwrapped entry hmem).accepted_lt]
    rfl
  · congr 1
    refine List.map_congr_left fun entry hmem => ?_
    rw [(h entry hmem).sendFailures_eq,
      UInt64.toNat_ofNat_of_lt' (hunwrapped entry hmem).rejected_lt]
    rfl

/-- No counter goes round as long as there are few enough sends. -/
theorem unwrapped_of_length_lt {entry : Entry} (hmem : entry ∈ entries)
    (hlt : (entries.flatMap Entry.sends).length < 2 ^ 64) : entry.Unwrapped := by
  have hsub : entry.sends.Sublist (entries.flatMap Entry.sends) :=
    List.sublist_flatten_of_mem (List.mem_map_of_mem hmem)
  have hlength : entry.sends.length < 2 ^ 64 := hsub.length_le.trans_lt hlt
  exact ⟨List.countP_le_length.trans_lt hlength, List.countP_le_length.trans_lt hlength⟩

end Sums

/-- A rig and the entries of its sessions so far. -/
structure Books (σ : Type) where
  rig : Rig (Recorder σ)
  /-- One for each session that is over, in order. -/
  closed : List Entry := []

namespace Books

/-- The entry of the session that is running, if one is. -/
def current (books : Books σ) : List Entry :=
  match books.rig with
  | .idle _ _ => []
  | .busy session =>
    [{ stats := session.agent.stats
       sends := session.agent.sink.sends.drop (books.closed.flatMap Entry.sends).length }]

def entries (books : Books σ) : List Entry := books.closed ++ books.current

/-- The sends of all sessions. -/
def sends (books : Books σ) : List Send := books.entries.flatMap Entry.sends

/-- The entry of a session is closed when its worker is joined. -/
def step (books : Books σ) (step : RigStep) : Books σ where
  rig := books.rig.step step
  closed :=
    match books.rig, books.rig.step step with
    | .busy _, .idle _ _ => books.closed ++ books.current
    | _, _ => books.closed

def run (books : Books σ) (steps : List RigStep) : Books σ := steps.foldl step books

theorem rig_run (books : Books σ) (steps : List RigStep) :
    (books.run steps).rig = books.rig.run steps := by
  induction steps generalizing books with
  | nil => rfl
  | cons step steps ih => exact ih (books.step step)

/-! ## What the entries say -/

/-- These entries have the sends that the sink had got before the running session. -/
def Cover (closed : List Entry) : Rig (Recorder σ) → Prop
  | .idle _ recorder => recorder.sends = closed.flatMap Entry.sends
  | .busy session =>
    ∃ before sends notifies, session.agent.Ledger before sends notifies ∧
      before.filterMap SinkCall.send? = closed.flatMap Entry.sends

structure Sound (books : Books σ) : Prop where
  exact : ∀ entry ∈ books.closed, entry.Exact
  cover : Cover books.closed books.rig

omit [Sink σ] in
/-- The entry of a session has the sends of its ledger. -/
theorem current_of_ledger {session : Session (Recorder σ)} {closed : List Entry}
    {before : List SinkCall} {sends : List Send} {notifies : Nat}
    (h : session.agent.Ledger before sends notifies)
    (hbefore : before.filterMap SinkCall.send? = closed.flatMap Entry.sends) :
    ({ rig := .busy session, closed } : Books σ).current =
      [{ stats := session.agent.stats, sends }] := by
  change [Entry.mk _ (session.agent.sink.sends.drop _)] = _
  rw [h.sends_eq, hbefore, List.drop_left]

omit [Sink σ] in
/-- With the entry of the running session, the entries have all sends. -/
theorem Sound.entries {books : Books σ} (h : books.Sound) :
    (∀ entry ∈ books.entries, entry.Exact) ∧ books.sends = books.rig.sink.sends := by
  obtain ⟨rig, closed⟩ := books
  cases rig with
  | idle ring recorder =>
    have hentries : ({ rig := .idle ring recorder, closed } : Books σ).entries = closed :=
      List.append_nil closed
    rw [Books.sends, hentries]
    exact ⟨h.exact, h.cover.symm⟩
  | busy session =>
    obtain ⟨before, sends, notifies, hledger, hbefore⟩ := h.cover
    rw [Books.sends, Books.entries, current_of_ledger hledger hbefore]
    refine ⟨?_, ?_⟩
    · intro entry hmem
      rcases List.mem_append.mp hmem with hmem | hmem
      · exact h.exact entry hmem
      · rw [List.mem_singleton.mp hmem]
        exact ⟨by rw [hledger.stats_eq]; rfl, by rw [hledger.stats_eq]; rfl⟩
    · change _ = session.agent.sink.sends
      rw [List.flatMap_append, ← hbefore, hledger.sends_eq]
      simp

theorem Sound.step {books : Books σ} (h : books.Sound) (step : RigStep) :
    (books.step step).Sound := by
  obtain ⟨rig, closed⟩ := books
  cases rig with
  | idle ring recorder =>
    refine ⟨h.exact, ?_⟩
    change Cover closed (Rig.step (.idle ring recorder) step)
    cases step with
    | start config refusal =>
      rw [Rig.step]
      cases hstart : Agent.start config ring recorder refusal with
      | error error => exact h.cover
      | ok agent => exact ⟨_, _, _, (Agent.fresh_of_start hstart).ledger, h.cover⟩
    | step step => cases step <;> exact h.cover
    | join => exact h.cover
  | busy session =>
    obtain ⟨before, sends, notifies, hledger, hbefore⟩ := h.cover
    cases step with
    | start config refusal => exact h
    | step step =>
      obtain ⟨others, hothers⟩ := Session.ledger_step hledger step
      exact ⟨h.exact, before, others, _, hothers, hbefore⟩
    | join =>
      by_cases hover : session.owner = .joining ∧
          (session.agent.worker = .exited ∨ session.agent.worker = .dead)
      · have hjoin : Rig.step (.busy session) .join =
            .idle session.agent.join.ring session.agent.join.sink := if_pos hover
        obtain ⟨hexact, hsends⟩ := h.entries
        have hclosed : ({ rig := .busy session, closed } : Books σ).step .join =
            { rig := .idle session.agent.join.ring session.agent.join.sink
              closed := ({ rig := .busy session, closed } : Books σ).entries } := by
          simp only [Books.step, hjoin, Books.entries]
        rw [hclosed]
        refine ⟨hexact, ?_⟩
        change session.agent.join.sink.sends = _
        rw [session.agent.sends_join]
        exact hsends.symm
      · have hjoin : Rig.step (.busy session) .join = .busy session := if_neg hover
        have hopen : ({ rig := .busy session, closed } : Books σ).step .join =
            { rig := .busy session, closed } := by
          simp only [Books.step, hjoin]
        rw [hopen]
        exact h

theorem Sound.run {books : Books σ} (h : books.Sound) (steps : List RigStep) :
    (books.run steps).Sound := by
  induction steps generalizing books with
  | nil => exact h
  | cons step steps ih => exact ih (h.step step)

omit [Sink σ] in
/-- Books that begin with a sink that has got nothing. -/
theorem sound_of_new (ring : EventRing) (sink : σ) :
    ({ rig := .idle ring { inner := sink } } : Books σ).Sound :=
  ⟨fun _ hmem => absurd hmem List.not_mem_nil, rfl⟩

end Books

/-! ## Where every push is -/

namespace Rig

/-- The event whose `send` has not returned. -/
def inFlight : Rig σ → List Event
  | idle _ _ => []
  | busy session => session.agent.inFlight

omit [Sink σ] in
theorem handed_eq (rig : Rig (Recorder σ)) : rig.handed = rig.sink.handed ++ rig.inFlight := by
  cases rig with
  | idle ring recorder => exact (List.append_nil _).symm
  | busy session => rfl

/-- Every push so far has been taken, and then sent, or is being sent, or is queued, or it
has been refused. -/
theorem pushes_of_create {memory : Memory} {capacity : UInt64} {ring : EventRing}
    (h : EventRing.create memory capacity = .ok ring) (sink : σ) (steps : List RigStep) :
    let first : Rig (Recorder σ) := idle ring { inner := sink }
    let rig := first.run steps
    steps.countP RigStep.isPush =
      rig.sink.sends.length + rig.inFlight.length + rig.ring.count.toNat +
        refusals (first.history steps) := by
  intro first rig
  have hempty : ring.queued = [] := (EventRing.queued_of_create h).1
  have hbalance : rig.handed ++ rig.ring.queued = [] ++ ring.queued ++ first.accepted steps :=
    first.handed_append_queued_run steps
  rw [hempty, handed_eq, Recorder.handed_eq_map_sends, List.nil_append, List.nil_append]
    at hbalance
  have htaken : rig.sink.sends.length + rig.inFlight.length + rig.ring.queued.length =
      (first.accepted steps).length := by
    simpa [Nat.add_assoc] using congrArg List.length hbalance
  rw [← first.length_history, length_eq_taken_add_refusals, takenOf_history, ← htaken,
    EventRing.length_queued]

end Rig

/-! ## Counting sinks -/

namespace CountingSink

/-- A new counting sink has answered and counted what it was sent. -/
structure Counted (recorder : Recorder CountingSink) : Prop where
  answered : AllAnswered recorder.sends
  attempts_eq : recorder.inner.attempts = .ofNat recorder.sends.length
  count_eq : recorder.inner.count = .ofNat (recorder.sends.countP Send.accepted)

theorem Counted.send {recorder : Recorder CountingSink} (event : Event) (h : Counted recorder) :
    Counted (Sink.send recorder event).2 := by
  have hinner : (Sink.send recorder event).2.inner = (Sink.send recorder.inner event).2 :=
    congrArg (Recorder.inner ∘ Prod.snd) (Recorder.send_eq rfl)
  obtain ⟨hattempts, hanswer⟩ := recorder.inner.send_cases event
  refine ⟨?_, ?_, ?_⟩
  · rw [Recorder.sends_of_send]
    apply h.answered.append_singleton
    rcases hanswer with ⟨error, hrejected, -⟩ | ⟨haccepted, -⟩
    · rw [hrejected]
      rfl
    · rw [haccepted]
      rfl
  · rw [hinner, hattempts, h.attempts_eq, Recorder.sends_of_send, List.length_append,
      UInt64.ofNat_add]
    rfl
  · rw [hinner, Recorder.sends_of_send, List.countP_append]
    rcases hanswer with ⟨error, hrejected, hcount⟩ | ⟨haccepted, hcount⟩
    · rw [hcount, hrejected, h.count_eq]
      rfl
    · rw [hcount, haccepted, h.count_eq, UInt64.ofNat_add]
      rfl

theorem Counted.shutdown {recorder : Recorder CountingSink} (h : Counted recorder) :
    Counted (Sink.shutdown recorder) := by
  refine ⟨?_, ?_, ?_⟩ <;> rw [recorder.sends_shutdown]
  · exact h.answered
  · exact h.attempts_eq
  · exact h.count_eq

end CountingSink

namespace Books

/-- The sink has counted what the sessions have counted together, as words, and as numbers
as long as nothing goes round. -/
structure Agrees (books : Books CountingSink) : Prop where
  count_eq : (books.entries.map fun entry => entry.stats.sent).sum = books.rig.sink.inner.count
  attempts_eq :
    (books.entries.map fun entry => entry.stats.sent).sum +
      (books.entries.map fun entry => entry.stats.sendFailures).sum =
      books.rig.sink.inner.attempts
  toNat_count_eq : books.sends.length < 2 ^ 64 →
    (books.entries.map fun entry => entry.stats.sent.toNat).sum =
      books.rig.sink.inner.count.toNat
  toNat_attempts_eq : books.sends.length < 2 ^ 64 →
    (books.entries.map fun entry => entry.stats.sent.toNat).sum +
      (books.entries.map fun entry => entry.stats.sendFailures.toNat).sum =
      books.rig.sink.inner.attempts.toNat

/-- Books over a new counting sink agree with it. -/
theorem agrees_run (ring : EventRing) {counting : CountingSink}
    (hattempts : counting.attempts = 0) (hcount : counting.count = 0) (steps : List RigStep) :
    (({ rig := .idle ring { inner := counting } } : Books CountingSink).run steps).Agrees := by
  obtain ⟨hexact, hsends⟩ := ((sound_of_new ring counting).run steps).entries
  have hcounted : CountingSink.Counted
      (({ rig := .idle ring { inner := counting } } : Books CountingSink).run steps).rig.sink := by
    have hfirst : CountingSink.Counted (Rig.idle ring { inner := counting }).sink :=
      ⟨fun _ hmem => absurd hmem List.not_mem_nil, hattempts, hcount⟩
    rw [rig_run]
    exact Rig.sink_run (motive := CountingSink.Counted) (fun event => .send event) .shutdown
      hfirst steps
  generalize ({ rig := .idle ring { inner := counting } } : Books CountingSink).run steps = books
    at hexact hsends hcounted ⊢
  have hlength : books.sends.length =
      books.sends.countP Send.accepted + books.sends.countP Send.rejected := by
    have hanswered := hcounted.answered.countP_panicked
    rw [← hsends] at hanswered
    rw [length_eq_outcomes, hanswered, Nat.add_zero]
  have hcount : books.rig.sink.inner.count = .ofNat (books.sends.countP Send.accepted) := by
    rw [hsends]
    exact hcounted.count_eq
  have hattempts : books.rig.sink.inner.attempts = .ofNat books.sends.length := by
    rw [hsends]
    exact hcounted.attempts_eq
  obtain ⟨hsent, hfailed⟩ := sum_of_exact hexact
  have hsums (hlt : books.sends.length < 2 ^ 64) :=
    sum_toNat_of_exact hexact fun entry hmem => unwrapped_of_length_lt hmem hlt
  refine ⟨hsent.trans hcount.symm, ?_, fun hlt => ?_, fun hlt => ?_⟩
  · rw [hsent, hfailed, hattempts, hlength, UInt64.ofNat_add]
    rfl
  · rw [(hsums hlt).1, hcount,
      UInt64.toNat_ofNat_of_lt' (List.countP_le_length.trans_lt hlt)]
    rfl
  · rw [(hsums hlt).1, (hsums hlt).2, hattempts, UInt64.toNat_ofNat_of_lt' hlt]
    exact hlength.symm

/-- At every point of every run the counters balance: each push so far has been answered,
has been lost in a panic, is being sent, is queued or has been refused, and the counters of
the sessions, each of which begins at zero, and those of the ring say how many of each
there are.  A counting sink agrees with the sessions. -/
theorem pushes_balanced {memory : Memory} {capacity : UInt64} {ring : EventRing}
    (h : EventRing.create memory capacity = .ok ring) (sink : σ) (steps : List RigStep) :
    let first : Rig (Recorder σ) := .idle ring { inner := sink }
    let books := ({ rig := first } : Books σ).run steps
    let rig := books.rig
    let pushes := steps.countP RigStep.isPush
    let refused := refusals (first.history steps)
    let panicked := books.sends.countP Send.panicked
    rig.forget = (Rig.idle ring sink).run steps ∧
      books.sends = rig.sink.sends ∧
      (∀ entry ∈ books.entries, entry.Exact) ∧
      pushes = books.sends.countP Send.accepted + books.sends.countP Send.rejected +
        rig.inFlight.length + panicked + rig.ring.count.toNat + refused ∧
      rig.ring.dropped = .ofNat refused ∧
      ((∀ entry ∈ books.entries, entry.Unwrapped) → refused < 2 ^ 64 →
        pushes = (books.entries.map fun entry => entry.stats.sent.toNat).sum +
          (books.entries.map fun entry => entry.stats.sendFailures.toNat).sum +
          rig.inFlight.length + panicked + rig.ring.count.toNat + rig.ring.dropped.toNat) ∧
      ∀ counting : CountingSink, counting.attempts = 0 → counting.count = 0 →
        (({ rig := .idle ring { inner := counting } } : Books CountingSink).run steps).Agrees := by
  intro first books rig pushes refused panicked
  have hrig : rig = first.run steps := rig_run _ steps
  obtain ⟨hexact, hsends⟩ := ((sound_of_new ring sink).run steps).entries
  have hbalance : pushes = books.sends.countP Send.accepted + books.sends.countP Send.rejected +
      rig.inFlight.length + panicked + rig.ring.count.toNat + refused := by
    have hpushes := Rig.pushes_of_create h sink steps
    change pushes = (first.run steps).sink.sends.length + _ + _ + refused at hpushes
    rw [← hrig] at hpushes
    have hlength : rig.sink.sends.length = books.sends.countP Send.accepted +
        books.sends.countP Send.rejected + panicked := by
      rw [← hsends]
      exact length_eq_outcomes _
    omega
  have hdropped : rig.ring.dropped = .ofNat refused := by
    rw [hrig, first.dropped_run]
    change ring.dropped + _ = _
    rw [(EventRing.queued_of_create h).2.2, UInt64.zero_add]
  refine ⟨?_, hsends, hexact, hbalance, hdropped, ?_, ?_⟩
  · rw [hrig]
    exact Rig.forget_run first steps
  · intro hunwrapped hrefused
    obtain ⟨haccepted, hrejected⟩ := sum_toNat_of_exact hexact hunwrapped
    rw [haccepted, hrejected, hdropped, UInt64.toNat_ofNat_of_lt' hrefused]
    exact hbalance
  · exact fun counting hattempts hcount => agrees_run ring hattempts hcount steps

/-- One event is accepted, one lost in a panic and one refused; in the next session one is
rejected and one is being sent. -/
theorem balanced_over_panic_and_refusal :
    let steps : List RigStep :=
      [.step (.push .blank), .start {}, .step .notify, .step .work, .step .work, .step .work,
        .step (.push .blank), .step .work, .step (.push .blank), .step (.push .blank),
        .step .work, .step .flag, .step .wake, .join, .start {}, .step .notify, .step .work,
        .step .work, .step (.push .blank), .step .work, .step .work]
    ∃ ring, EventRing.create ⟨1000, by decide⟩ 1 = .ok ring ∧
      let sink : FaultySink := { inner := { failEvery := 2 }, panicAt := some 2 }
      let books := ({ rig := .idle ring { inner := sink } } : Books FaultySink).run steps
      books.entries.map Entry.stats =
          [{ sent := 1, wakeups := 1 }, { wakeups := 1, sendFailures := 1 }] ∧
        (books.sends.countP Send.panicked = 1 ∧ books.rig.inFlight.length = 1 ∧
          books.rig.ring.count = 0 ∧ books.rig.ring.dropped = 1) ∧
        (∀ entry ∈ books.entries, entry.Unwrapped) ∧
        5 = (books.entries.map fun entry => entry.stats.sent.toNat).sum +
          (books.entries.map fun entry => entry.stats.sendFailures.toNat).sum +
          books.rig.inFlight.length + books.sends.countP Send.panicked +
          books.rig.ring.count.toNat + books.rig.ring.dropped.toNat := by
  intro steps
  obtain ⟨ring, hring⟩ : ∃ ring, EventRing.create ⟨1000, by decide⟩ 1 = .ok ring := ⟨_, rfl⟩
  refine ⟨ring, hring, ?_⟩
  intro sink books
  obtain ⟨-, -, -, -, -, hbalance, -⟩ := pushes_balanced hring sink steps
  cases hring
  subst steps sink
  have hunwrapped : ∀ entry ∈ books.entries, entry.Unwrapped := by
    intro entry hmem
    apply unwrapped_of_length_lt hmem
    subst books
    decide +kernel
  refine ⟨?_, ?_, hunwrapped, hbalance hunwrapped (by decide +kernel)⟩
  · subst books
    decide +kernel
  · subst books
    decide +kernel

end Books

end Telemetry
