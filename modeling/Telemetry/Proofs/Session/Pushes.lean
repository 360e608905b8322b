import Telemetry.Proofs.Session.Conservation

/-!
# Pushes and their answers

The history of a run is the list of its pushes, each with the answer it got.  The
ones that were taken are the accepted events, and the others are what the ring's
drop counter has counted.
-/

namespace Telemetry

/-- The events taken, among pushes shown with their answers. -/
def takenOf (pushes : List (Event × Bool)) : List Event := (pushes.filter Prod.snd).map Prod.fst

/-- The number of pushes refused. -/
def refusals (pushes : List (Event × Bool)) : Nat := pushes.countP fun push => !push.2

theorem takenOf_append (left right : List (Event × Bool)) :
    takenOf (left ++ right) = takenOf left ++ takenOf right := by
  simp [takenOf]

theorem refusals_append (left right : List (Event × Bool)) :
    refusals (left ++ right) = refusals left + refusals right := by
  simp [refusals]

theorem takenOf_singleton (event : Event) (answer : Bool) :
    takenOf [(event, answer)] = if answer then [event] else [] := by
  cases answer <;> rfl

/-- Every push is either taken or refused. -/
theorem length_eq_taken_add_refusals (pushes : List (Event × Bool)) :
    pushes.length = (takenOf pushes).length + refusals pushes := by
  rw [takenOf, List.length_map, ← List.countP_eq_length_filter, refusals]
  simpa using List.length_eq_countP_add_countP Prod.snd (l := pushes)

/-! ## Rings -/

namespace EventRing

theorem capacity_push (ring : EventRing) (event : Event) :
    (ring.push event).2.capacity = ring.capacity := by
  rw [push]
  split <;> rfl

/-- A refused push is counted. -/
theorem dropped_push (ring : EventRing) (event : Event) :
    (ring.push event).2.dropped =
      ring.dropped + .ofNat (refusals [(event, (ring.push event).1)]) := by
  rw [push]
  split
  · rfl
  · exact (UInt64.add_zero _).symm

end EventRing

theorem SessionStep.not_push_of_cons {step : SessionStep} {steps : List SessionStep}
    (h : ∀ event, .push event ∉ step :: steps) :
    (∀ event, step ≠ .push event) ∧ ∀ event, .push event ∉ steps :=
  ⟨fun event hstep => h event (hstep ▸ List.mem_cons_self),
    fun event hmem => h event (List.mem_cons_of_mem _ hmem)⟩

variable {σ : Type} [Sink σ]

namespace Agent

variable {agent after : Agent σ}

/-- A worker neither resizes its ring nor touches the drop counter. -/
theorem Move.ring_counts_eq (h : Move agent after) :
    after.ring.capacity = agent.ring.capacity ∧ after.ring.dropped = agent.ring.dropped := by
  cases h with
  | take room event ring hworker hroom hpop => exact (EventRing.queued_of_pop? hpop).2
  | _ => exact ⟨rfl, rfl⟩

@[simp]
theorem ring_join (agent : Agent σ) : agent.join.ring = agent.ring := by
  rw [join]
  split <;> rfl

@[simp]
theorem stats_join (agent : Agent σ) : agent.join.stats = agent.stats := by
  rw [join]
  split <;> rfl

end Agent

/-! ## Sessions -/

namespace Session

/-- The push that a step is, if it is one, with its answer. -/
def pushed (session : Session σ) : SessionStep → List (Event × Bool)
  | .push event => [(event, (session.agent.push event).1)]
  | _ => []

/-- The pushes of a run, in order, each with its answer. -/
def history (session : Session σ) : List SessionStep → List (Event × Bool)
  | [] => []
  | step :: steps => session.pushed step ++ (session.step step).history steps

theorem history_append (session : Session σ) (steps behind : List SessionStep) :
    session.history (steps ++ behind) =
      session.history steps ++ (session.run steps).history behind := by
  induction steps generalizing session with
  | nil => rfl
  | cons step steps ih =>
    rw [List.cons_append, history, history, ih, List.append_assoc]
    rfl

theorem history_of_no_push (session : Session σ) {steps : List SessionStep}
    (h : ∀ event, .push event ∉ steps) : session.history steps = [] := by
  induction steps generalizing session with
  | nil => rfl
  | cons step steps ih =>
    obtain ⟨hstep, hsteps⟩ := SessionStep.not_push_of_cons h
    have hpushed : session.pushed step = [] := by
      cases step with
      | push event => exact absurd rfl (hstep event)
      | _ => rfl
    rw [history, hpushed, ih _ hsteps]
    rfl

theorem takenOf_history (session : Session σ) (steps : List SessionStep) :
    takenOf (session.history steps) = session.accepted steps := by
  induction steps generalizing session with
  | nil => rfl
  | cons step steps ih =>
    have hpushed : takenOf (session.pushed step) = session.taken step := by
      cases step with
      | push event => exact takenOf_singleton event _
      | _ => rfl
    rw [history, accepted, takenOf_append, hpushed, ih]

theorem ring_counts_step (session : Session σ) (step : SessionStep) :
    (session.step step).agent.ring.capacity = session.agent.ring.capacity ∧
      (session.step step).agent.ring.dropped =
        session.agent.ring.dropped + .ofNat (refusals (session.pushed step)) := by
  obtain ⟨agent, owner⟩ := session
  have hnone : agent.ring.dropped = agent.ring.dropped + .ofNat (refusals []) :=
    (UInt64.add_zero _).symm
  cases step with
  | push event => exact ⟨agent.ring.capacity_push event, agent.ring.dropped_push event⟩
  | work =>
    change (agent.step?.getD agent).ring.capacity = _ ∧
      (agent.step?.getD agent).ring.dropped = agent.ring.dropped + .ofNat (refusals [])
    rcases agent.rest_or_move with hrest | hmove
    · rw [hrest]
      exact ⟨rfl, hnone⟩
    · rw [hmove.ring_counts_eq.1, hmove.ring_counts_eq.2]
      exact ⟨rfl, hnone⟩
  | flag | wake => cases owner <;> exact ⟨rfl, hnone⟩
  | notify | stall | release => exact ⟨rfl, hnone⟩

/-- The drop counter has counted the refused pushes. -/
theorem ring_counts_run (session : Session σ) (steps : List SessionStep) :
    (session.run steps).agent.ring.capacity = session.agent.ring.capacity ∧
      (session.run steps).agent.ring.dropped =
        session.agent.ring.dropped + .ofNat (refusals (session.history steps)) := by
  induction steps generalizing session with
  | nil => exact ⟨rfl, (UInt64.add_zero _).symm⟩
  | cons step steps ih =>
    obtain ⟨hcapacity, hdropped⟩ := session.ring_counts_step step
    obtain ⟨hcapacity', hdropped'⟩ := ih (session.step step)
    refine ⟨hcapacity'.trans hcapacity, ?_⟩
    rw [history, refusals_append, UInt64.ofNat_add, ← UInt64.add_assoc, ← hdropped]
    exact hdropped'

end Session

/-! ## Rigs -/

def RigStep.isPush : RigStep → Bool
  | .step (.push _) => true
  | _ => false

namespace Rig

/-- The push that a step is, if it is one, with its answer. -/
def pushed (rig : Rig σ) : RigStep → List (Event × Bool)
  | .step (.push event) => [(event, (rig.ring.push event).1)]
  | _ => []

/-- The pushes of a run, in order, each with its answer. -/
def history (rig : Rig σ) : List RigStep → List (Event × Bool)
  | [] => []
  | step :: steps => rig.pushed step ++ (rig.step step).history steps

/-- The history has all that were tried. -/
theorem length_history (rig : Rig σ) (steps : List RigStep) :
    (rig.history steps).length = steps.countP RigStep.isPush := by
  induction steps generalizing rig with
  | nil => rfl
  | cons step steps ih =>
    have hpushed : (rig.pushed step).length = if step.isPush then 1 else 0 := by
      cases step with
      | step step => cases step <;> rfl
      | _ => rfl
    rw [history, List.length_append, ih, hpushed, List.countP_cons, Nat.add_comm]

omit [Sink σ] in
theorem takenOf_pushed (rig : Rig σ) (step : RigStep) :
    takenOf (rig.pushed step) = rig.taken step := by
  cases step with
  | step step =>
    cases step with
    | push event => exact takenOf_singleton event _
    | _ => rfl
  | _ => rfl

theorem takenOf_history (rig : Rig σ) (steps : List RigStep) :
    takenOf (rig.history steps) = rig.accepted steps := by
  induction steps generalizing rig with
  | nil => rfl
  | cons step steps ih => rw [history, accepted, takenOf_append, takenOf_pushed, ih]

theorem dropped_step (rig : Rig σ) (step : RigStep) :
    (rig.step step).ring.dropped = rig.ring.dropped + .ofNat (refusals (rig.pushed step)) := by
  have hnone : rig.ring.dropped = rig.ring.dropped + .ofNat (refusals []) :=
    (UInt64.add_zero _).symm
  cases rig with
  | idle ring sink =>
    cases step with
    | start config refusal =>
      rw [Rig.step]
      cases hstart : Agent.start config ring sink refusal with
      | error error => exact hnone
      | ok agent =>
        change agent.ring.dropped = ring.dropped + .ofNat (refusals [])
        rw [(Agent.fresh_of_start hstart).ring_eq]
        exact hnone
    | step step =>
      cases step with
      | push event => exact ring.dropped_push event
      | _ => exact hnone
    | join => exact hnone
  | busy session =>
    cases step with
    | start config refusal => exact hnone
    | step step =>
      have hpushed : (busy session).pushed (.step step) = session.pushed step := by
        cases step <;> rfl
      rw [hpushed]
      exact (session.ring_counts_step step).2
    | join =>
      rw [Rig.step]
      split
      · next hended =>
        change session.agent.join.ring.dropped = _
        rw [Agent.ring_join]
        exact hnone
      · exact hnone

theorem dropped_run (rig : Rig σ) (steps : List RigStep) :
    (rig.run steps).ring.dropped = rig.ring.dropped + .ofNat (refusals (rig.history steps)) := by
  induction steps generalizing rig with
  | nil => exact (UInt64.add_zero _).symm
  | cons step steps ih =>
    rw [history, refusals_append, UInt64.ofNat_add, ← UInt64.add_assoc, ← dropped_step]
    exact ih (rig.step step)

end Rig

end Telemetry
