import Telemetry.Proofs.Session.Ending

/-!
# Draining without batches

A forwarder drains the ring to empty, in one go, whenever it is woken.  It has
neither batches nor a pending flag: it is what an agent looks like to those who
act only while the worker is at rest.  The state in which an agent's worker will
come to rest is that of a forwarder, and no move of the worker changes it.
-/

namespace Telemetry

/-- Where a forwarder is when it is left alone. -/
inductive Place where
  | asleep
  /-- In a `send` that does not return. -/
  | held (event : Event)
  /-- The owner asked for the end, and the ring was drained behind that. -/
  | returned
  /-- Unwound by a panic of the sink. -/
  | dead
  deriving DecidableEq

structure Forwarder (σ : Type) where
  ring : EventRing
  sink : σ
  stats : Stats := {}
  /-- While it is set, no `send` returns. -/
  stalled : Bool := false
  owner : Owner := .holding
  place : Place := .asleep

variable {σ : Type} [Sink σ]

namespace Forwarder

/-- Sends all that is queued, oldest first.  Behind that it sleeps or, for an
owner that wants the end, returns. -/
def drain (forwarder : Forwarder σ) : Forwarder σ :=
  match _hpop : forwarder.ring.pop? with
  | none =>
    { forwarder with place := if forwarder.owner = .holding then .asleep else .returned }
  | some (event, ring) =>
    if forwarder.stalled then
      { forwarder with ring, place := .held event }
    else
      match Sink.send forwarder.sink event with
      | (.accepted, sink) =>
        drain { forwarder with ring, sink, stats := forwarder.stats.addSent }
      | (.rejected _, sink) =>
        drain { forwarder with ring, sink, stats := forwarder.stats.addSendFailure }
      | (.panicked, sink) => { forwarder with ring, sink, place := .dead }
termination_by forwarder.ring.count.toNat
decreasing_by
  all_goals
    have := EventRing.count_of_pop? _hpop
    omega

/-- The `send` of an event that has left the ring, and the drain behind it. -/
def resume (forwarder : Forwarder σ) (event : Event) : Forwarder σ :=
  if forwarder.stalled then
    { forwarder with place := .held event }
  else
    match Sink.send forwarder.sink event with
    | (.accepted, sink) => drain { forwarder with sink, stats := forwarder.stats.addSent }
    | (.rejected _, sink) =>
      drain { forwarder with sink, stats := forwarder.stats.addSendFailure }
    | (.panicked, sink) => { forwarder with sink, place := .dead }

/-- Only one that sleeps can be woken. -/
def wake (forwarder : Forwarder σ) : Forwarder σ :=
  match forwarder.place with
  | .asleep => forwarder.drain
  | _ => forwarder

def release (forwarder : Forwarder σ) : Forwarder σ :=
  match forwarder.place with
  | .held event => { forwarder with stalled := false, place := .asleep }.resume event
  | _ => { forwarder with stalled := false }

def step (forwarder : Forwarder σ) : SessionStep → Forwarder σ
  | .push event => { forwarder with ring := (forwarder.ring.push event).2 }
  | .notify => { forwarder with stats := forwarder.stats.addWakeup }.wake
  | .work => forwarder
  | .stall => { forwarder with stalled := true }
  | .release => forwarder.release
  | .flag =>
    match forwarder.owner with
    | .holding => { forwarder with owner := .flagged }
    | _ => forwarder
  | .wake =>
    match forwarder.owner with
    | .flagged => { forwarder with owner := .joining }.wake
    | _ => forwarder

def run (forwarder : Forwarder σ) (script : List SessionStep) : Forwarder σ :=
  script.foldl step forwarder

/-- The sink of one that has returned is shut down. -/
def join (forwarder : Forwarder σ) : Forwarder σ :=
  match forwarder.place with
  | .returned => { forwarder with sink := Sink.shutdown forwarder.sink }
  | _ => forwarder

/-- The owner ends the session, if it has not begun to. -/
def close (forwarder : Forwarder σ) : Forwarder σ :=
  if forwarder.owner = .holding then { forwarder with owner := .joining }.wake.join
  else forwarder

variable {forwarder : Forwarder σ} {event : Event} {ring : EventRing}

theorem drain_of_empty (h : forwarder.ring.pop? = none) :
    forwarder.drain =
      { forwarder with place := if forwarder.owner = .holding then .asleep else .returned } := by
  rw [drain]
  split
  · rfl
  · next hpop =>
    rw [h] at hpop
    cases hpop

theorem drain_of_pop? (h : forwarder.ring.pop? = some (event, ring)) :
    forwarder.drain = { forwarder with ring }.resume event := by
  rw [drain]
  split
  · next hpop =>
    rw [h] at hpop
    cases hpop
  · next hpop =>
    rw [h] at hpop
    cases hpop
    rfl

end Forwarder

/-! ## Where a worker will come to rest -/

namespace Agent

/-- What becomes of an agent once its worker is at rest. -/
def outlook (agent : Agent σ) (owner : Owner) : Forwarder σ :=
  let asleep : Forwarder σ :=
    { ring := agent.ring, sink := agent.sink, stats := agent.stats, stalled := agent.stalled,
      owner }
  match agent.worker with
  | .waiting => if agent.pending then asleep.drain else asleep
  | .draining _ | .checking _ => asleep.drain
  | .sending event _ => asleep.resume event
  | .exited => { asleep with place := .returned }
  | .dead => { asleep with place := .dead }

/-- What holds of a worker that nobody else gets in the way of. -/
structure Orderly (agent : Agent σ) (owner : Owner) : Prop where
  running_iff : agent.running = true ↔ owner = .holding
  stopping_iff : agent.stopping = true ↔ owner ≠ .holding
  /-- The ring is still as empty as it was seen to be. -/
  emptied : agent.worker = .checking true → agent.ring.pop? = none
  not_last : owner = .holding → ¬ agent.worker.isLast

omit [Sink σ] in
theorem Orderly.stopping_eq_false {agent : Agent σ} {owner : Owner} (h : Orderly agent owner)
    (howner : owner = .holding) : agent.stopping = false := by
  rw [← Bool.not_eq_true, h.stopping_iff]
  exact not_not_intro howner

variable {agent after : Agent σ} {owner : Owner}

theorem Move.orderly (h : Move agent after) (horderly : Orderly agent owner) :
    Orderly after owner where
  running_iff := h.running_eq ▸ horderly.running_iff
  stopping_iff := h.stopping_eq ▸ horderly.stopping_iff
  emptied := by
    cases h with
    | emptied room hworker hpop => exact fun _ => hpop
    | _ => intro hemptied; cases hemptied
  not_last howner :=
    h.not_isLast (horderly.stopping_eq_false howner) (horderly.not_last howner)

/-- A move changes nothing about where the worker will come to rest.  A wakeup that has come
by the time it goes to sleep finds the ring as empty as it was. -/
theorem Move.outlook_eq (h : Move agent after) (horderly : Orderly agent owner) :
    after.outlook owner = agent.outlook owner := by
  cases h with
  | wake hworker hpending => simp [outlook, hworker, hpending]
  | full hworker => simp [outlook, hworker]
  | take room event ring hworker hroom hpop =>
    simp only [outlook, hworker]
    rw [Forwarder.drain_of_pop? hpop]
  | emptied room hworker hpop => simp [outlook, hworker]
  | exit hworker hpop =>
    have howner : owner ≠ .holding := by
      intro howner
      apply horderly.not_last howner
      rw [hworker]
      trivial
    simp only [outlook, hworker]
    rw [Forwarder.drain_of_empty hpop, if_neg howner]
  | sent event room sink hworker hstalled hsend =>
    simp [outlook, Forwarder.resume, hworker, hstalled, hsend]
  | rejected event room error sink hworker hstalled hsend =>
    simp [outlook, Forwarder.resume, hworker, hstalled, hsend]
  | panicked event room sink hworker hstalled hsend =>
    simp [outlook, Forwarder.resume, hworker, hstalled, hsend]
  | stop emptied hworker hstopping => simp [outlook, hworker]
  | again hworker hstopping => simp [outlook, hworker]
  | sleep hworker hstopping =>
    have howner : owner = .holding := by
      by_contra howner
      rw [horderly.stopping_iff.mpr howner] at hstopping
      cases hstopping
    have hpop := horderly.emptied hworker
    simp only [outlook, hworker]
    rw [Forwarder.drain_of_empty hpop, if_pos howner]
    split <;> rfl

theorem Orderly.settle (h : Orderly agent owner) :
    Orderly agent.settle owner ∧ agent.settle.outlook owner = agent.outlook owner :=
  settle_induction
    (motive := fun after => Orderly after owner ∧ after.outlook owner = agent.outlook owner)
    (fun hmove h => ⟨hmove.orderly h.1, (hmove.outlook_eq h.1).trans h.2⟩) ⟨h, rfl⟩

end Agent

/-! ## Agents at rest -/

/-- Whether a worker that rests there is where the forwarder is. -/
def Worker.RestsAt : Worker → Place → Prop
  | .waiting, .asleep | .exited, .returned | .dead, .dead => True
  | .sending event _, .held other => event = other
  | _, _ => False

theorem Worker.RestsAt.exited_iff {worker : Worker} {place : Place} (h : worker.RestsAt place) :
    worker = .exited ↔ place = .returned := by
  cases worker <;> cases place <;> simp_all [RestsAt]

namespace Agent

/-- The agent is at rest, in the state of the forwarder. -/
structure Shows (agent : Agent σ) (forwarder : Forwarder σ) : Prop where
  ring_eq : agent.ring = forwarder.ring
  sink_eq : agent.sink = forwarder.sink
  stats_eq : agent.stats = forwarder.stats
  restsAt : agent.worker.RestsAt forwarder.place

theorem Shows.join {agent : Agent σ} {forwarder : Forwarder σ} (h : agent.Shows forwarder) :
    agent.join.ring = forwarder.join.ring ∧ agent.join.sink = forwarder.join.sink ∧
      agent.join.stats = forwarder.join.stats := by
  by_cases hplace : forwarder.place = .returned
  · have hworker : agent.worker = .exited := h.restsAt.exited_iff.mpr hplace
    simp only [Agent.join, Forwarder.join, hworker, hplace]
    exact ⟨h.ring_eq, congrArg Sink.shutdown h.sink_eq, h.stats_eq⟩
  · have hworker : agent.worker ≠ .exited := mt h.restsAt.exited_iff.mp hplace
    simp only [Agent.join, Forwarder.join]
    exact ⟨h.ring_eq, h.sink_eq, h.stats_eq⟩

/-- Where a worker is that cannot step, with what holds it there. -/
inductive AtRest (agent : Agent σ) : Prop where
  | waiting (hworker : agent.worker = .waiting) (hpending : agent.pending = false)
  | sending (event : Event) (room : Option Nat) (hworker : agent.worker = .sending event room)
      (hstalled : agent.stalled = true)
  | exited (hworker : agent.worker = .exited)
  | dead (hworker : agent.worker = .dead)

theorem atRest_of_step? {agent : Agent σ} (h : agent.step? = none) : AtRest agent := by
  rcases rest_of_step?_eq_none h with
    ⟨hworker, hpending⟩ | ⟨event, room, hworker, hstalled⟩ | hworker | hworker
  · exact .waiting hworker hpending
  · exact .sending event room hworker hstalled
  · exact .exited hworker
  · exact .dead hworker

section Rest

variable {agent : Agent σ} (hrest : agent.step? = none) (owner : Owner)

include hrest

theorem not_checking_of_rest (emptied : Bool) : agent.worker ≠ .checking emptied := by
  intro hworker
  rw [step?, hworker] at hrest
  cases hrest

theorem shows_outlook : Shows agent (agent.outlook owner) := by
  cases atRest_of_step? hrest <;> constructor <;>
    simp [outlook, Forwarder.resume, Worker.RestsAt, *]

theorem outlook_of_owner (other : Owner) :
    agent.outlook other = { agent.outlook owner with owner := other } := by
  cases atRest_of_step? hrest <;>
    simp [outlook, Forwarder.resume, *]

theorem owner_outlook : (agent.outlook owner).owner = owner :=
  congrArg Forwarder.owner (outlook_of_owner hrest owner owner)

theorem outlook_push (event : Event) :
    (agent.push event).2.outlook owner = (agent.outlook owner).step (.push event) := by
  cases atRest_of_step? hrest <;>
    simp [outlook, push, Forwarder.step, Forwarder.resume, *]

theorem outlook_notify : agent.notify.outlook owner = (agent.outlook owner).step .notify := by
  cases atRest_of_step? hrest <;>
    simp [outlook, notify, signal, Forwarder.step, Forwarder.wake, Forwarder.resume, *]

theorem outlook_stall : agent.stall.outlook owner = (agent.outlook owner).step .stall := by
  cases atRest_of_step? hrest <;>
    simp [outlook, stall, Forwarder.step, Forwarder.resume, *]

theorem outlook_release : agent.release.outlook owner = (agent.outlook owner).step .release := by
  cases atRest_of_step? hrest <;>
    simp [outlook, release, Forwarder.step, Forwarder.release, Forwarder.resume, *]

theorem outlook_signal : agent.signal.outlook owner = (agent.outlook owner).wake := by
  cases atRest_of_step? hrest <;>
    simp [outlook, signal, Forwarder.wake, Forwarder.resume, *]

/-- The owner's flag and wakeup, given to a worker at rest. -/
theorem orderly_ending : agent.ending.Orderly .joining where
  running_iff := by simp [ending, requestStop, raiseStop, signal]
  stopping_iff := by simp [ending, requestStop, raiseStop, signal]
  emptied hworker := absurd hworker (not_checking_of_rest hrest true)
  not_last := by simp

theorem outlook_ending :
    agent.ending.outlook .joining = { agent.outlook owner with owner := .joining }.wake := by
  rw [← outlook_of_owner hrest owner .joining]
  exact outlook_signal hrest .joining

end Rest

theorem shows_settle {agent : Agent σ} {owner : Owner} (h : Orderly agent owner) :
    Shows agent.settle (agent.outlook owner) := by
  rw [← h.settle.2]
  exact shows_outlook (step?_settle agent) owner

end Agent

end Telemetry
