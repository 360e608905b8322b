import Telemetry.Proofs.Ring.BoundedQueue

/-!
# Cursor arithmetic in machine words

Cursors are words, and a wrapped sum taken modulo a number of slots that is no
power of two would be a wrong count.  That the sum never wraps does not follow
from the check that `create` makes on the capacity alone: it takes the bound on
the memory that slots are reserved from, together with cursors that stay below
the number of slots over every run.
-/

namespace Telemetry.EventRing

variable {ring : EventRing}

/-- A ring that could be created fits in memory with all its slots. -/
theorem slots_fit_of_create {memory : Memory} {capacity : UInt64}
    (h : create memory capacity = .ok ring) :
    (capacity.toNat + 1) * slotBytes ≤ memory.limit := by
  unfold create at h
  split at h
  · cases h
  split at h
  · cases h
  split at h
  · next hfits => exact hfits
  · cases h

/-- Over any run the slots stay as many as they were, and so does the capacity. -/
theorem size_slots_run (handles : Handles) (operations : List Operation)
    {capacity : UInt64} {queue : BoundedQueue capacity}
    (h : Represents handles.ring queue) :
    (EventRing.run Handles.perform handles operations).2.ring.slots.size = capacity.toNat + 1 := by
  have hend := (h.run operations).2
  rw [EventRing.size_slots, hend.capacity_eq]

/-- Every intermediate value of the cursor arithmetic at `head` and `tail` is the
one that unbounded numbers would give. -/
structure ExactAt (ring : EventRing) (head tail : UInt64) : Prop where
  /-- The index behind a cursor does not wrap around to 0. -/
  following_head : (head + 1).toNat = head.toNat + 1
  following_tail : (tail + 1).toNat = tail.toNat + 1
  next_head : (ring.next head).toNat = (head.toNat + 1) % ring.allocation.toNat
  next_tail : (ring.next tail).toNat = (tail.toNat + 1) % ring.allocation.toNat
  /-- The sum in `distance` does not overflow. -/
  sum : (head + ring.allocation).toNat = head.toNat + ring.allocation.toNat
  /-- The difference in `distance` does not underflow. -/
  tail_le : tail.toNat ≤ (head + ring.allocation).toNat
  difference : (head + ring.allocation - tail).toNat =
    head.toNat + ring.allocation.toNat - tail.toNat
  distance : (ring.distance head tail).toNat =
    (head.toNat + ring.allocation.toNat - tail.toNat) % ring.allocation.toNat

/-- Whether or not the two cursors were read at one moment, being below the number
of slots is enough. -/
theorem exactAt_of_lt {head tail : UInt64} (hhead : head < ring.allocation)
    (htail : tail < ring.allocation) : ExactAt ring head tail := by
  have hsize := ring.size_slots_lt
  have halloc := ring.toNat_allocation
  rw [UInt64.lt_iff_toNat_lt, halloc] at hhead htail
  have hsum : (head + ring.allocation).toNat = head.toNat + ring.allocation.toNat := by
    rw [UInt64.toNat_add, halloc]
    omega
  have htail_le : tail.toNat ≤ (head + ring.allocation).toNat := by omega
  exact {
    following_head := by rw [UInt64.toNat_add]; simp; omega
    following_tail := by rw [UInt64.toNat_add]; simp; omega
    next_head := by rw [toNat_next ring hhead, halloc]
    next_tail := by rw [toNat_next ring htail, halloc]
    sum := hsum
    tail_le := htail_le
    difference := by
      rw [UInt64.toNat_sub_of_le _ _ (UInt64.le_iff_toNat_le.mpr htail_le), hsum]
    distance := by rw [toNat_distance ring hhead htail, halloc] }

/-- Over every run of a ring that could be created both cursors stay below the
number of slots, no sum or difference of them leaves the words, and their
distance is exactly how many of the accepted events have not been taken: 0
where they meet and the capacity where `head` is right behind `tail`. -/
theorem cursors_exact {memory : Memory} {capacity : UInt64}
    (h : create memory capacity = .ok ring) (operations : List Operation) :
    let after := (EventRing.run Handles.perform ring.split operations).2.ring
    let queue := (EventRing.run BoundedQueue.perform ({} : BoundedQueue capacity) operations).2
    after.allocation.toNat = capacity.toNat + 1 ∧
      after.slots.size = after.allocation.toNat ∧
      after.slots.size * slotBytes ≤ memory.limit ∧
      after.head.toNat < after.slots.size ∧ after.tail.toNat < after.slots.size ∧
      (∀ head tail, head < after.allocation → tail < after.allocation →
        ExactAt after head tail) ∧
      (after.distance after.head after.tail).toNat = queue.events.length ∧
      (after.distance after.head after.tail = 0 ↔ after.head = after.tail) ∧
      (after.distance after.head after.tail = capacity ↔ after.next after.head = after.tail) := by
  intro after queue
  have hstart : Represents ring.split.ring ({} : BoundedQueue capacity) := represents_of_create h
  have hend : Represents after queue := (hstart.run operations).2
  have hsize : after.slots.size = capacity.toNat + 1 := size_slots_run _ operations hstart
  have hcount : after.count.toNat = queue.events.length := by
    rw [← length_queued, hend.queued_eq]
  refine ⟨?_, ?_, ?_, after.head_lt, after.tail_lt, fun _ _ => exactAt_of_lt, hcount, ?_, ?_⟩
  · rw [toNat_allocation, hsize]
  · rw [toNat_allocation]
  · rw [hsize]
    exact slots_fit_of_create h
  · rw [← UInt64.toNat_inj, eq_comm (a := after.head), tail_eq_head_iff]
    rfl
  · rw [next_head_eq_tail_iff, ← UInt64.toNat_inj, hend.capacity_eq]
    rfl

/-- Two usable slots, a refused push, and a push that takes `head` past the last
slot, so that it stands in front of `tail`. -/
theorem cursors_exact_past_last_slot :
    let event : Event := .blank
    let operations : List Operation := [.push event, .push event, .push event, .pop, .push event]
    ∃ ring, create ⟨1000, by decide⟩ 2 = .ok ring ∧
      let after := (EventRing.run Handles.perform ring.split operations).2.ring
      after.head = 0 ∧ after.tail = 1 ∧ ExactAt after after.head after.tail ∧
        (after.distance after.head after.tail).toNat = 2 ∧
        after.next after.head = after.tail := by
  intro event operations
  obtain ⟨ring, hring⟩ : ∃ ring, create ⟨1000, by decide⟩ 2 = .ok ring := ⟨_, rfl⟩
  refine ⟨ring, hring, ?_⟩
  intro after
  obtain ⟨-, hsize, -, hhead, htail, hexact, hdistance, -, hfull⟩ :=
    cursors_exact hring operations
  have htwo : (EventRing.run BoundedQueue.perform ({} : BoundedQueue 2) operations).2.events.length
      = 2 := rfl
  rw [hsize, ← UInt64.lt_iff_toNat_lt] at hhead htail
  refine ⟨?_, ?_, hexact _ _ hhead htail, hdistance.trans htwo, ?_⟩
  · cases hring
    rfl
  · cases hring
    rfl
  · exact hfull.mp (UInt64.toNat_inj.mp (hdistance.trans htwo))

end Telemetry.EventRing
