import Telemetry.Proofs.Ring.Contents

/-!
# A ring is a bounded queue

The specification of a ring is a list with a bound and a count of refusals.
Both sides are driven by the same operations, and over every run they give the
same answers.
-/

namespace Telemetry.EventRing

/-! ## Operations and answers -/

/-- What can be asked of a ring that has been split. -/
inductive Operation where
  | push (event : Event)
  | tryPush (event : Event)
  | pop
  | tryPop
  | count
  | isEmpty
  | dropped
  /-- Both handles are given up and the ring is split again. -/
  | resplit

inductive Reply where
  | accepted (answer : Bool)
  | offered (result : Except Error Unit)
  | popped (event : Option Event)
  | taken (result : Except Error Event)
  | count (events : Nat)
  | isEmpty (answer : Bool)
  | dropped (refusals : UInt64)
  | split

/-- The answers to `operations`, in order, and the state they lead to. -/
def run {State : Type} (perform : State → Operation → Reply × State) (state : State) :
    List Operation → List Reply × State
  | [] => ([], state)
  | operation :: operations =>
    let (reply, state) := perform state operation
    let (replies, state) := run perform state operations
    (reply :: replies, state)

/-- One operation through the handles. -/
def Handles.perform (handles : Handles) : Operation → Reply × Handles
  | .push event =>
    let (accepted, ring) := handles.ring.push event
    (.accepted accepted, { ring })
  | .tryPush event =>
    let (result, ring) := handles.ring.tryPush event
    (.offered result, { ring })
  | .pop =>
    match handles.ring.pop? with
    | none => (.popped none, handles)
    | some (event, ring) => (.popped (some event), { ring })
  | .tryPop =>
    match handles.ring.tryPop with
    | .error error => (.taken (.error error), handles)
    | .ok (event, ring) => (.taken (.ok event), { ring })
  | .count => (.count handles.ring.count.toNat, handles)
  | .isEmpty => (.isEmpty handles.ring.isEmpty, handles)
  | .dropped => (.dropped handles.ring.dropped, handles)
  | .resplit => (.split, handles.giveUp.split)

/-! ## The specification -/

/-- A first-in first-out queue that refuses what is over its capacity and counts
the refusals. -/
structure BoundedQueue (capacity : UInt64) where
  /-- Oldest first. -/
  events : List Event := []
  refusals : Nat := 0

namespace BoundedQueue

variable {capacity : UInt64}

/-- Whether the event was appended. -/
def push (queue : BoundedQueue capacity) (event : Event) : Bool × BoundedQueue capacity :=
  if queue.events.length < capacity.toNat then
    (true, { queue with events := queue.events ++ [event] })
  else
    (false, { queue with refusals := queue.refusals + 1 })

def perform (queue : BoundedQueue capacity) : Operation → Reply × BoundedQueue capacity
  | .push event =>
    let (accepted, queue) := queue.push event
    (.accepted accepted, queue)
  | .tryPush event =>
    match queue.push event with
    | (true, queue) => (.offered (.ok ()), queue)
    | (false, queue) => (.offered (.error (.queueFull capacity)), queue)
  | .pop =>
    match queue.events with
    | [] => (.popped none, queue)
    | event :: events => (.popped (some event), { queue with events })
  | .tryPop =>
    match queue.events with
    | [] => (.taken (.error .queueEmpty), queue)
    | event :: events => (.taken (.ok event), { queue with events })
  | .count => (.count queue.events.length, queue)
  | .isEmpty => (.isEmpty queue.events.isEmpty, queue)
  | .dropped => (.dropped (.ofNat queue.refusals), queue)
  | .resplit => (.split, queue)

end BoundedQueue

/-! ## The refinement -/

variable {capacity : UInt64} {ring : EventRing} {queue : BoundedQueue capacity}

/-- The ring is in the state that the queue describes. -/
structure Represents (ring : EventRing) (queue : BoundedQueue capacity) : Prop where
  capacity_eq : ring.capacity = capacity
  queued_eq : ring.queued = queue.events
  dropped_eq : ring.dropped = .ofNat queue.refusals

theorem represents_of_create {memory : Memory} (h : create memory capacity = .ok ring) :
    Represents ring ({} : BoundedQueue capacity) := by
  obtain ⟨hqueued, hcapacity, hdropped⟩ := queued_of_create h
  exact ⟨hcapacity, hqueued, hdropped⟩

/-- Both sides answer a push alike and stay related. -/
theorem Represents.push (h : Represents ring queue) (event : Event) :
    ∃ accepted ring' queue', ring.push event = (accepted, ring') ∧
      queue.push event = (accepted, queue') ∧ Represents ring' queue' := by
  have hlength : ring.queued.length = queue.events.length := by rw [h.queued_eq]
  have hcapacity := h.capacity_eq
  rcases Nat.lt_or_eq_of_le ring.length_queued_le with hroom | hfull
  · obtain ⟨after, hpush, hqueued, hsame, hdropped⟩ := queued_push_of_room hroom event
    rw [hlength, hcapacity] at hroom
    refine ⟨true, after, _, hpush, if_pos hroom, hsame.trans hcapacity, ?_,
      hdropped.trans h.dropped_eq⟩
    rw [hqueued, h.queued_eq]
  · have hpush := push_of_full hfull event
    rw [hlength, hcapacity] at hfull
    refine ⟨false, _, _, hpush, if_neg (by omega), hcapacity, h.queued_eq, ?_⟩
    simp [h.dropped_eq, UInt64.ofNat_add]

/-- Both sides are empty together, and otherwise their oldest events agree. -/
theorem Represents.pop (h : Represents ring queue) :
    (ring.pop? = none ∧ queue.events = []) ∨
      ∃ event rest events, ring.pop? = some (event, rest) ∧ queue.events = event :: events ∧
        Represents rest ({ queue with events } : BoundedQueue capacity) := by
  cases hpop : ring.pop? with
  | none =>
    left
    exact ⟨rfl, by rw [← h.queued_eq, ← pop?_eq_none_iff, hpop]⟩
  | some result =>
    right
    obtain ⟨event, rest⟩ := result
    obtain ⟨hqueued, hcapacity, hdropped⟩ := queued_of_pop? hpop
    refine ⟨event, rest, rest.queued, rfl, by rw [← h.queued_eq, hqueued], ?_⟩
    exact ⟨hcapacity.trans h.capacity_eq, rfl, hdropped.trans h.dropped_eq⟩

/-- One operation: the answers agree and the states stay related. -/
theorem Represents.perform {handles : Handles} (h : Represents handles.ring queue)
    (operation : Operation) :
    (handles.perform operation).1 = (queue.perform operation).1 ∧
      Represents (handles.perform operation).2.ring (queue.perform operation).2 := by
  cases operation with
  | push event =>
    obtain ⟨accepted, ring, after, hring, hqueue, hafter⟩ := h.push event
    simp only [Handles.perform, hring, BoundedQueue.perform, hqueue]
    exact ⟨trivial, hafter⟩
  | tryPush event =>
    obtain ⟨accepted, ring, after, hring, hqueue, hafter⟩ := h.push event
    simp only [Handles.perform, tryPush, hring, BoundedQueue.perform, hqueue]
    cases accepted with
    | false => exact ⟨by simp only [hafter.capacity_eq], hafter⟩
    | true => exact ⟨rfl, hafter⟩
  | pop =>
    rcases h.pop with ⟨hpop, hevents⟩ | ⟨event, rest, events, hpop, hevents, hafter⟩
    · simp only [Handles.perform, hpop, BoundedQueue.perform, hevents]
      exact ⟨trivial, h⟩
    · simp only [Handles.perform, hpop, BoundedQueue.perform, hevents]
      exact ⟨trivial, hafter⟩
  | tryPop =>
    rcases h.pop with ⟨hpop, hevents⟩ | ⟨event, rest, events, hpop, hevents, hafter⟩
    · simp only [Handles.perform, tryPop, hpop, BoundedQueue.perform, hevents]
      exact ⟨trivial, h⟩
    · simp only [Handles.perform, tryPop, hpop, BoundedQueue.perform, hevents]
      exact ⟨trivial, hafter⟩
  | count =>
    refine ⟨?_, h⟩
    simp only [Handles.perform, BoundedQueue.perform]
    rw [← length_queued, h.queued_eq]
  | isEmpty =>
    refine ⟨?_, h⟩
    simp only [Handles.perform, BoundedQueue.perform, Reply.isEmpty.injEq]
    rw [Bool.eq_iff_iff, isEmpty_iff, h.queued_eq, List.isEmpty_iff]
  | dropped => exact ⟨congrArg Reply.dropped h.dropped_eq, h⟩
  | resplit => exact ⟨rfl, h⟩

/-- A whole run: every answer agrees, and the states stay related to the end. -/
theorem Represents.run {handles : Handles} (h : Represents handles.ring queue)
    (operations : List Operation) :
    (EventRing.run Handles.perform handles operations).1 =
        (EventRing.run BoundedQueue.perform queue operations).1 ∧
      Represents (EventRing.run Handles.perform handles operations).2.ring
        (EventRing.run BoundedQueue.perform queue operations).2 := by
  induction operations generalizing handles queue with
  | nil => exact ⟨rfl, h⟩
  | cons operation operations ih =>
    obtain ⟨hreply, hafter⟩ := h.perform operation
    obtain ⟨hreplies, hend⟩ := ih hafter
    simp only [EventRing.run]
    exact ⟨by rw [hreply, hreplies], hend⟩

/-- Over every run of a ring that could be created, each answer is that of a
queue bounded by the capacity, and so are the events left and the refusals
counted. -/
theorem replies_eq_boundedQueue {memory : Memory} (h : create memory capacity = .ok ring)
    (operations : List Operation) :
    let actual := EventRing.run Handles.perform ring.split operations
    let expected := EventRing.run BoundedQueue.perform ({} : BoundedQueue capacity) operations
    actual.1 = expected.1 ∧
      actual.2.ring.queued = expected.2.events ∧
      actual.2.ring.dropped = .ofNat expected.2.refusals ∧
      expected.2.events.length ≤ capacity.toNat := by
  intro actual expected
  have hstart : Represents ring.split.ring ({} : BoundedQueue capacity) :=
    represents_of_create h
  obtain ⟨hreplies, hend⟩ := hstart.run operations
  refine ⟨hreplies, hend.queued_eq, hend.dropped_eq, ?_⟩
  rw [← hend.queued_eq, ← hend.capacity_eq]
  exact actual.2.ring.length_queued_le

/-- Two slots, a refusal at the full boundary, a second split and a push that
wraps. -/
theorem replies_over_full_and_wrapping_ring :
    let first : Event := .blank
    let second : Event := { Event.blank with id := 1 }
    let third : Event := { Event.blank with id := 2 }
    ∃ ring, create ⟨1000, by decide⟩ 2 = .ok ring ∧
      (EventRing.run Handles.perform ring.split
        [.push first, .tryPush second, .tryPush third, .dropped, .pop, .resplit, .push third,
          .count, .tryPop, .pop, .tryPop, .isEmpty]).1 =
        [.accepted true, .offered (.ok ()), .offered (.error (.queueFull 2)), .dropped 1,
          .popped (some first), .split, .accepted true, .count 2, .taken (.ok second),
          .popped (some third), .taken (.error .queueEmpty), .isEmpty true] := by
  intro first second third
  obtain ⟨ring, hring⟩ : ∃ ring, create ⟨1000, by decide⟩ 2 = .ok ring := ⟨_, rfl⟩
  refine ⟨ring, hring, ?_⟩
  rw [(replies_eq_boundedQueue hring _).1]
  rfl

end Telemetry.EventRing
