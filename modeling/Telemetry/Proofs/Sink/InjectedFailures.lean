import Telemetry.Proofs.Session.Books

/-!
# Failures on purpose

A counting sink that is to fail every `n`-th attempt fails the attempts whose
numbers `n` divides, counted over its whole life, and takes all others.  What it
counts and what it keeps follows from the numbers alone.
-/

namespace Telemetry

variable {σ : Type} [Sink σ]

/-! ## The life of a sink -/

/-- What a sink can go through. -/
inductive Use where
  | init (config : SinkConfig)
  | send (event : Event)
  | shutdown
  /-- Any number of agents drain the ring into the sink, one after the other. -/
  | sessions (ring : EventRing) (steps : List RigStep)

namespace Recorder

def use (recorder : Recorder σ) : Use → Recorder σ
  | .init config => (Sink.init recorder config).2
  | .send event => (Sink.send recorder event).2
  | .shutdown => Sink.shutdown recorder
  | .sessions ring steps => ((Rig.idle ring recorder).run steps).sink

/-- The sink after all these uses, with every call that it got. -/
def life (sink : σ) (uses : List Use) : Recorder σ := uses.foldl use { inner := sink }

/-- What every call keeps holds after every life. -/
theorem life_induction {motive : Recorder σ → Prop} {sink : σ}
    (hinit : ∀ {recorder : Recorder σ} config, motive recorder →
      motive (Sink.init recorder config).2)
    (hsend : ∀ {recorder : Recorder σ} event, motive recorder →
      motive (Sink.send recorder event).2)
    (hshutdown : ∀ {recorder : Recorder σ}, motive recorder → motive (Sink.shutdown recorder))
    (h : motive { inner := sink }) (uses : List Use) : motive (life sink uses) := by
  rw [life]
  generalize ({ inner := sink } : Recorder σ) = recorder at h
  induction uses generalizing recorder with
  | nil => exact h
  | cons use uses ih =>
    apply ih
    cases use with
    | init config => exact hinit config h
    | send event => exact hsend event h
    | shutdown => exact hshutdown h
    | sessions ring steps =>
      have hidle : motive (Rig.idle ring recorder).sink := h
      exact Rig.sink_run (motive := motive) hsend hshutdown hidle steps

theorem sends_init (recorder : Recorder σ) (config : SinkConfig) :
    (Sink.init recorder config).2.sends = recorder.sends := by
  change (recorder.calls ++ [SinkCall.init config]).filterMap SinkCall.send? = _
  rw [List.filterMap_append]
  exact List.append_nil _

end Recorder

namespace CountingSink

/-! ## Numbers of attempts -/

/-- Whether the attempt with this number fails. -/
def failsAt (n : UInt64) (attempt : Nat) : Bool := 1 ≤ n.toNat ∧ n.toNat ∣ attempt

def answerAt (n : UInt64) (attempt : Nat) : Answer :=
  if failsAt n attempt then .rejected (.sendFailure (.injected (.ofNat attempt)) none)
  else .accepted

/-- The events whose attempts do not fail, the first attempt being number 1. -/
def spared (n : UInt64) (events : List Event) : List Event :=
  (events.zipIdx 1).filterMap fun numbered =>
    if failsAt n numbered.2 then none else some numbered.1

variable {n : UInt64} {attempt : Nat}

theorem answerAt_ne_accepted_iff :
    answerAt n attempt ≠ .accepted ↔ 1 ≤ n.toNat ∧ n.toNat ∣ attempt := by
  rw [answerAt]
  split
  · next hfails => exact iff_of_true Answer.noConfusion (of_decide_eq_true hfails)
  · next hspared => exact iff_of_false (absurd rfl) (mt decide_eq_true hspared)

theorem spared_append_singleton (events : List Event) (event : Event) :
    spared n (events ++ [event]) =
      spared n events ++ if failsAt n (events.length + 1) then [] else [event] := by
  rw [spared, List.zipIdx_append, List.filterMap_append, Nat.add_comm]
  congr 1
  cases h : failsAt n (events.length + 1) <;> simp [h]

/-- One event in `n` is not spared, and all are if `n` is 0. -/
theorem length_spared_add_div (events : List Event) :
    (spared n events).length + events.length / n.toNat = events.length := by
  induction events using List.reverseRecOn with
  | nil => simp [spared]
  | append_singleton events event ih =>
    rw [spared_append_singleton, List.length_append, List.length_append, List.length_singleton,
      Nat.succ_div]
    by_cases hdvd : n.toNat ∣ events.length + 1
    · have hpos : 1 ≤ n.toNat := Nat.pos_of_dvd_of_pos hdvd (Nat.succ_pos _)
      have hfails : failsAt n (events.length + 1) = true := by simp [failsAt, hpos, hdvd]
      rw [if_pos hfails, if_pos hdvd, List.length_nil]
      omega
    · have hfails : failsAt n (events.length + 1) = false := by simp [failsAt, hdvd]
      rw [hfails, if_neg Bool.false_ne_true, if_neg hdvd, List.length_singleton]
      omega

/-- The test on words is the test on numbers, as long as they do not go round. -/
theorem fails_iff (hlt : attempt < 2 ^ 64) :
    (0 < n ∧ UInt64.ofNat attempt % n = 0) ↔ failsAt n attempt = true := by
  have hmod : UInt64.ofNat attempt % n = 0 ↔ n.toNat ∣ attempt := by
    rw [← UInt64.toNat_inj, UInt64.toNat_mod, UInt64.toNat_ofNat_of_lt' hlt,
      Nat.dvd_iff_mod_eq_zero]
    rfl
  rw [failsAt, decide_eq_true_iff, hmod, UInt64.lt_iff_toNat_lt]
  rfl

theorem attempts_add_one {sink : CountingSink} (h : sink.attempts = .ofNat attempt) :
    sink.attempts + 1 = .ofNat (attempt + 1) := by
  rw [h, UInt64.ofNat_add]
  rfl

theorem send_of_failsAt {sink : CountingSink} (h : sink.attempts = .ofNat attempt)
    (hlt : attempt + 1 < 2 ^ 64) (hfails : failsAt sink.failEvery (attempt + 1) = true)
    (event : Event) :
    sink.send event = (answerAt sink.failEvery (attempt + 1),
      { sink with attempts := .ofNat (attempt + 1) }) := by
  rw [send, attempts_add_one h, if_pos ((fails_iff hlt).mpr hfails), answerAt, if_pos hfails]

theorem send_of_spared {sink : CountingSink} (h : sink.attempts = .ofNat attempt)
    (hlt : attempt + 1 < 2 ^ 64) (hspared : ¬ failsAt sink.failEvery (attempt + 1) = true)
    (event : Event) :
    sink.send event = (answerAt sink.failEvery (attempt + 1),
      { sink with
        attempts := .ofNat (attempt + 1)
        count := sink.count + 1
        kept := if sink.recording then event :: sink.kept else sink.kept }) := by
  rw [send, attempts_add_one h, if_neg (mt (fails_iff hlt).mp hspared), answerAt,
    if_neg hspared]

/-! ## What every call keeps -/

/-- A counting sink that was new before these sends. -/
structure Account (recording : Bool) (n : UInt64) (sends : List Send) (sink : CountingSink) :
    Prop where
  recording_eq : sink.recording = recording
  failEvery_eq : sink.failEvery = n
  attempts_eq : sink.attempts = .ofNat sends.length
  answers_eq : sends.map Send.answer = (List.range' 1 sends.length).map (answerAt n)
  count_eq : sink.count = .ofNat (spared n (sends.map Send.event)).length
  events_eq : sink.events = if recording then spared n (sends.map Send.event) else []

variable {recording : Bool} {sends : List Send} {sink : CountingSink}

theorem account_of_new (recording : Bool) (n : UInt64) :
    Account recording n [] { recording, failEvery := n } where
  recording_eq := rfl
  failEvery_eq := rfl
  attempts_eq := rfl
  answers_eq := rfl
  count_eq := rfl
  events_eq := by cases recording <;> rfl

/-- The flags have no part in it. -/
theorem Account.with_flags (h : Account recording n sends sink) (initialized shutDown : Bool) :
    Account recording n sends { sink with initialized, shutDown } where
  recording_eq := h.recording_eq
  failEvery_eq := h.failEvery_eq
  attempts_eq := h.attempts_eq
  answers_eq := h.answers_eq
  count_eq := h.count_eq
  events_eq := h.events_eq

/-- Each attempt is answered by its number. -/
theorem Account.answer_eq (h : Account recording n sends sink) {index : Nat}
    (hindex : index < sends.length) : sends[index].answer = answerAt n (index + 1) := by
  have hanswer := congrArg (·[index]?) h.answers_eq
  simpa [hindex, Nat.add_comm 1 index] using hanswer

/-- The numbers of the attempts go on by one. -/
theorem Account.answers_append (h : Account recording n sends sink) (event : Event) :
    (sends ++ [Send.mk event (answerAt n (sends.length + 1))]).map Send.answer =
      (List.range' 1 (sends.length + 1)).map (answerAt n) := by
  rw [List.map_append, h.answers_eq, List.range'_1_concat, List.map_append, Nat.add_comm 1]
  rfl

theorem spared_map_append (sends : List Send) (event : Event) (answer : Answer) :
    spared n ((sends ++ [Send.mk event answer]).map Send.event) =
      spared n (sends.map Send.event) ++
        if failsAt n (sends.length + 1) then [] else [event] := by
  rw [List.map_append, List.map_singleton, spared_append_singleton, List.length_map]

theorem Account.send (h : Account recording n sends sink) (hlt : sends.length + 1 < 2 ^ 64)
    (event : Event) :
    Account recording n (sends ++ [Send.mk event (sink.send event).1]) (sink.send event).2 := by
  by_cases hfails : failsAt n (sends.length + 1) = true
  · rw [send_of_failsAt h.attempts_eq hlt (by rwa [h.failEvery_eq]), h.failEvery_eq]
    refine ⟨h.recording_eq, rfl, ?_, ?_, ?_, ?_⟩
    · rw [List.length_append, List.length_singleton]
    · rw [h.answers_append, List.length_append, List.length_singleton]
    · rw [spared_map_append, if_pos hfails, List.append_nil]
      exact h.count_eq
    · rw [spared_map_append, if_pos hfails, List.append_nil]
      exact h.events_eq
  · rw [send_of_spared h.attempts_eq hlt (by rwa [h.failEvery_eq]), h.failEvery_eq]
    refine ⟨h.recording_eq, rfl, ?_, ?_, ?_, ?_⟩
    · rw [List.length_append, List.length_singleton]
    · rw [h.answers_append, List.length_append, List.length_singleton]
    · change sink.count + 1 = _
      rw [spared_map_append, if_neg hfails, List.length_append, UInt64.ofNat_add, h.count_eq]
      rfl
    · have hevents := h.events_eq
      rw [spared_map_append, if_neg hfails, h.recording_eq]
      cases recording with
      | false => exact hevents
      | true =>
        change (event :: sink.kept).reverse = _
        rw [List.reverse_cons]
        exact congrArg (· ++ [event]) hevents

/-- The flags tell which calls there have been. -/
structure Flags (recorder : Recorder CountingSink) : Prop where
  initialized_iff : recorder.inner.initialized = true ↔ ∃ config, .init config ∈ recorder.calls
  shutDown_iff : recorder.inner.shutDown = true ↔ .shutdown ∈ recorder.calls

variable {recorder : Recorder CountingSink}

theorem Flags.init (h : Flags recorder) (config : SinkConfig) :
    Flags (Sink.init recorder config).2 := by
  have hcalls : (Sink.init recorder config).2.calls = recorder.calls ++ [.init config] := rfl
  constructor
  · rw [hcalls]
    exact iff_of_true rfl ⟨config, List.mem_append_right _ (List.mem_singleton_self _)⟩
  · rw [hcalls]
    exact h.shutDown_iff.trans (by simp)

theorem Flags.shutdown (h : Flags recorder) : Flags (Sink.shutdown recorder) := by
  have hcalls : (Sink.shutdown recorder).calls = recorder.calls ++ [.shutdown] := rfl
  constructor
  · rw [hcalls]
    exact h.initialized_iff.trans (by simp)
  · rw [hcalls]
    exact iff_of_true rfl (List.mem_append_right _ (List.mem_singleton_self _))

theorem flags_send (sink : CountingSink) (event : Event) :
    (sink.send event).2.initialized = sink.initialized ∧
      (sink.send event).2.shutDown = sink.shutDown := by
  rw [CountingSink.send]
  split <;> exact ⟨rfl, rfl⟩

theorem Flags.send (h : Flags recorder) (event : Event) : Flags (Sink.send recorder event).2 := by
  obtain ⟨hinitialized, hshutDown⟩ := flags_send recorder.inner event
  have hcalls : (Sink.send recorder event).2.calls =
      recorder.calls ++ [.send event (Sink.send recorder.inner event).1] := rfl
  constructor
  · change (recorder.inner.send event).2.initialized = true ↔ _
    rw [hcalls, hinitialized, h.initialized_iff]
    simp
  · change (recorder.inner.send event).2.shutDown = true ↔ _
    rw [hcalls, hshutDown, h.shutDown_iff]
    simp

/-! ## Whole lives -/

theorem account_life (recording : Bool) (n : UInt64) (uses : List Use)
    (hlt : (Recorder.life ({ recording, failEvery := n } : CountingSink) uses).sends.length <
      2 ^ 64) :
    Account recording n
      (Recorder.life ({ recording, failEvery := n } : CountingSink) uses).sends
      (Recorder.life ({ recording, failEvery := n } : CountingSink) uses).inner := by
  revert hlt
  apply Recorder.life_induction (motive := fun recorder : Recorder CountingSink =>
    recorder.sends.length < 2 ^ 64 → Account recording n recorder.sends recorder.inner)
  · intro recorder config h hlt
    rw [recorder.sends_init] at hlt ⊢
    exact (h hlt).with_flags true recorder.inner.shutDown
  · intro recorder event h hlt
    rw [recorder.sends_of_send] at hlt ⊢
    rw [List.length_append, List.length_singleton] at hlt
    exact (h (Nat.lt_of_succ_lt hlt)).send hlt event
  · intro recorder h hlt
    rw [recorder.sends_shutdown] at hlt ⊢
    exact (h hlt).with_flags recorder.inner.initialized true
  · exact fun _ => account_of_new recording n

theorem flags_life (recording : Bool) (n : UInt64) (uses : List Use) :
    Flags (Recorder.life ({ recording, failEvery := n } : CountingSink) uses) := by
  apply Recorder.life_induction (motive := Flags)
  · exact fun config h => h.init config
  · exact fun event h => h.send event
  · exact fun h => h.shutdown
  · constructor <;> simp

/-- Whatever a counting sink goes through in its life, its attempts are numbered from 1 on,
those fail whose numbers `n` divides, and it counts the others and keeps their events if it
is to.  `init` and `shutdown` show in their flags and nowhere else. -/
theorem every_nth_attempt_fails (recording : Bool) (n : UInt64) (uses : List Use)
    (hlt : (Recorder.life ({ recording, failEvery := n } : CountingSink) uses).sends.length <
      2 ^ 64) :
    let recorder := Recorder.life ({ recording, failEvery := n } : CountingSink) uses
    let sends := recorder.sends
    let sink := recorder.inner
    sink.attempts.toNat = sends.length ∧
      (∀ (index : Nat) (hindex : index < sends.length),
        sends[index].answer = answerAt n (index + 1) ∧
          (sends[index].answer ≠ .accepted ↔ 1 ≤ n.toNat ∧ n.toNat ∣ index + 1)) ∧
      sink.count.toNat = sink.attempts.toNat - sink.attempts.toNat / n.toNat ∧
      (n = 0 → sink.count = sink.attempts) ∧
      sink.events = (if recording then spared n (sends.map Send.event) else []) ∧
      (recording = true → sink.events.length = sink.count.toNat) ∧
      (∀ config, Sink.init sink config = (.ok (), { sink with initialized := true })) ∧
      Sink.shutdown sink = { sink with shutDown := true } ∧
      (sink.initialized = true ↔ ∃ config, .init config ∈ recorder.calls) ∧
      (sink.shutDown = true ↔ .shutdown ∈ recorder.calls) := by
  intro recorder sends sink
  have haccount : Account recording n sends sink := account_life recording n uses hlt
  have hflags : Flags recorder := flags_life recording n uses
  have hattempts : sink.attempts.toNat = sends.length := by
    rw [haccount.attempts_eq, UInt64.toNat_ofNat_of_lt' hlt]
  have hsum : (spared n (sends.map Send.event)).length + sends.length / n.toNat = sends.length := by
    have hspared := length_spared_add_div (n := n) (sends.map Send.event)
    rwa [List.length_map] at hspared
  have hcount : sink.count.toNat = (spared n (sends.map Send.event)).length := by
    rw [haccount.count_eq, UInt64.toNat_ofNat_of_lt']
    exact (Nat.le.intro hsum).trans_lt hlt
  refine ⟨hattempts, ?_, ?_, ?_, haccount.events_eq, ?_, fun _ => rfl, rfl,
    hflags.initialized_iff, hflags.shutDown_iff⟩
  · intro index hindex
    rw [haccount.answer_eq hindex]
    exact ⟨rfl, answerAt_ne_accepted_iff⟩
  · rw [hattempts, hcount]
    omega
  · rintro rfl
    apply UInt64.toNat_inj.mp
    rw [hattempts, hcount, ← hsum]
    exact (Nat.add_eq_left.mpr (Nat.div_zero _)).symm
  · intro hrecording
    rw [haccount.events_eq, if_pos hrecording, hcount]

/-- Of three attempts the second fails, which is an agent's, between two that are not. -/
theorem second_of_three_fails :
    let first : Event := .blank
    let second : Event := { Event.blank with id := 1 }
    let third : Event := { Event.blank with id := 2 }
    let drained : List RigStep :=
      [.step (.push second), .start {}, .step .notify, .step .work, .step .work, .step .work]
    ∃ ring, EventRing.create ⟨1000, by decide⟩ 1 = .ok ring ∧
      let recorder := Recorder.life ({ recording := true, failEvery := 2 } : CountingSink)
        [.send first, .init {}, .sessions ring drained, .shutdown, .send third]
      recorder.sends.length < 2 ^ 64 ∧ recorder.handed = [first, second, third] ∧
        recorder.inner.attempts.toNat = 3 ∧ recorder.inner.count.toNat = 2 ∧
        recorder.inner.events = [first, third] := by
  intro first second third drained
  obtain ⟨ring, hring⟩ : ∃ ring, EventRing.create ⟨1000, by decide⟩ 1 = .ok ring := ⟨_, rfl⟩
  refine ⟨ring, hring, ?_⟩
  intro recorder
  have hhanded : recorder.handed = [first, second, third] := by
    cases hring
    subst recorder drained
    decide +kernel
  have hevents : recorder.sends.map Send.event = [first, second, third] := by
    rw [← Recorder.handed_eq_map_sends, hhanded]
  have hlength : recorder.sends.length = 3 := by
    rw [← List.length_map Send.event, hevents]
    rfl
  have hlt : recorder.sends.length < 2 ^ 64 := by
    rw [hlength]
    decide
  subst recorder
  obtain ⟨hattempts, -, hcount, -, hkept, -⟩ := every_nth_attempt_fails true 2 _ hlt
  rw [hlength] at hattempts
  rw [hattempts] at hcount
  rw [hevents] at hkept
  have hspared : spared 2 [first, second, third] = [first, third] := by decide +kernel
  rw [if_pos rfl, hspared] at hkept
  have hdiv : 3 - 3 / UInt64.toNat 2 = 2 := by decide
  rw [hdiv] at hcount
  exact ⟨hlt, hhanded, hattempts, hcount, hkept⟩

end CountingSink

end Telemetry
