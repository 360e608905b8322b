import Mathlib
import Telemetry.EventRing

/-!
# What a ring holds

The queued events of a ring are the slots from `tail` up to `head`, read around
the circle.  Every operation is described by what it does to this list, so that
nothing above this file speaks of cursors, wrapping or the stale records that
the unused slots keep.
-/

namespace Telemetry.EventRing

variable {ring rest : EventRing} {event : Event}

/-- The slot that lies `offset` places after the oldest event. -/
def place (ring : EventRing) (offset : Nat) : Nat :=
  (ring.tail.toNat + offset) % ring.slots.size

theorem place_lt (ring : EventRing) (offset : Nat) :
    ring.place offset < ring.slots.size :=
  Nat.mod_lt _ (Nat.zero_lt_of_lt ring.tail_lt)

/-- The record in the slot `offset` places after the oldest event. -/
def recordAt (ring : EventRing) (offset : Nat) : Event :=
  have := ring.place_lt offset
  ring.slots[ring.place offset]

/-- The queued events, oldest first. -/
def queued (ring : EventRing) : List Event :=
  List.ofFn fun offset : Fin ring.count.toNat => ring.recordAt offset

@[simp]
theorem length_queued (ring : EventRing) : ring.queued.length = ring.count.toNat := by
  simp [queued]

/-! ## The two cursors on the circle -/

/-- Either the queue runs straight from `tail` to `head`, or it passes the end
of the slots once. -/
theorem head_eq_tail_add_count (ring : EventRing) :
    ring.tail.toNat + ring.count.toNat = ring.head.toNat ∨
      ring.tail.toNat + ring.count.toNat = ring.head.toNat + ring.slots.size := by
  have hhead := ring.head_lt
  have htail := ring.tail_lt
  rw [toNat_count]
  by_cases hwrap : ring.head.toNat < ring.tail.toNat
  · right
    rw [Nat.mod_eq_of_lt (by omega)]
    omega
  · left
    rw [show ring.head.toNat + ring.slots.size - ring.tail.toNat =
        (ring.head.toNat - ring.tail.toNat) + ring.slots.size by omega,
      Nat.add_mod_right, Nat.mod_eq_of_lt (by omega)]
    omega

theorem count_le_capacity (ring : EventRing) :
    ring.count.toNat ≤ ring.capacity.toNat := by
  have hsize := ring.size_slots
  have hlt : ring.count.toNat < ring.slots.size := by
    rw [toNat_count]
    exact Nat.mod_lt _ (Nat.zero_lt_of_lt ring.tail_lt)
  omega

/-- Offsets stay below the number of slots, so wrapping subtracts at most one
turn. -/
theorem place_of_lt (ring : EventRing) {offset : Nat} (hoffset : offset < ring.slots.size) :
    ring.place offset = ring.tail.toNat + offset ∨
      ring.place offset + ring.slots.size = ring.tail.toNat + offset := by
  have htail := ring.tail_lt
  by_cases hlt : ring.tail.toNat + offset < ring.slots.size
  · left
    exact Nat.mod_eq_of_lt hlt
  · right
    rw [place, Nat.mod_eq_sub_mod (not_lt.mp hlt), Nat.mod_eq_of_lt (by omega)]
    omega

/-- The next event goes right behind the last one. -/
theorem place_count (ring : EventRing) : ring.place ring.count.toNat = ring.head.toNat := by
  have hsize := ring.size_slots
  have hcount := ring.count_le_capacity
  have hhead := ring.head_lt
  have hlt := ring.place_lt ring.count.toNat
  have hinside : ring.count.toNat < ring.slots.size := by omega
  rcases ring.place_of_lt hinside with hplace | hplace <;>
    rcases ring.head_eq_tail_add_count with hcursor | hcursor <;> omega

/-- The slot the next event goes to is no slot of a queued one. -/
theorem place_ne_head {offset : Nat} (hoffset : offset < ring.count.toNat) :
    ring.place offset ≠ ring.head.toNat := by
  have hsize := ring.size_slots
  have hcount := ring.count_le_capacity
  have htail := ring.tail_lt
  have hhead := ring.head_lt
  have hinside : offset < ring.slots.size := by omega
  rcases ring.place_of_lt hinside with hplace | hplace <;>
    rcases ring.head_eq_tail_add_count with hcursor | hcursor <;> omega

/-- The next slot is one further on, or it is the first one behind the last. -/
theorem next_cases (ring : EventRing) {index : UInt64} (hindex : index.toNat < ring.slots.size) :
    ((ring.next index).toNat = index.toNat + 1 ∧ index.toNat + 1 < ring.slots.size) ∨
      ((ring.next index).toNat = 0 ∧ index.toNat + 1 = ring.slots.size) := by
  rw [toNat_next ring hindex]
  by_cases hlt : index.toNat + 1 < ring.slots.size
  · left
    exact ⟨Nat.mod_eq_of_lt hlt, hlt⟩
  · right
    have hlast : index.toNat + 1 = ring.slots.size := by omega
    rw [hlast]
    exact ⟨Nat.mod_self _, rfl⟩

theorem tail_eq_head_iff (ring : EventRing) :
    ring.tail = ring.head ↔ ring.count.toNat = 0 := by
  have hsize := ring.size_slots
  have hcount := ring.count_le_capacity
  have htail := ring.tail_lt
  rw [← UInt64.toNat_inj]
  rcases ring.head_eq_tail_add_count with hcursor | hcursor <;> omega

/-- `head` is right behind `tail` exactly when every usable slot is taken. -/
theorem next_head_eq_tail_iff (ring : EventRing) :
    ring.next ring.head = ring.tail ↔ ring.count.toNat = ring.capacity.toNat := by
  have hsize := ring.size_slots
  have hcount := ring.count_le_capacity
  have hhead := ring.head_lt
  have htail := ring.tail_lt
  rw [← UInt64.toNat_inj]
  rcases ring.next_cases hhead with ⟨hnext, hlt⟩ | ⟨hnext, hlast⟩ <;>
    rcases ring.head_eq_tail_add_count with hcursor | hcursor <;> omega

/-! ## What the operations do to the queue -/

theorem queued_eq_nil_iff (ring : EventRing) :
    ring.queued = [] ↔ ring.count.toNat = 0 := by
  rw [← List.length_eq_zero_iff, length_queued]

theorem isEmpty_iff (ring : EventRing) : ring.isEmpty = true ↔ ring.queued = [] := by
  rw [queued_eq_nil_iff, isEmpty, beq_iff_eq, ← UInt64.toNat_inj]
  rfl

theorem length_queued_le (ring : EventRing) : ring.queued.length ≤ ring.capacity.toNat := by
  rw [length_queued]
  exact ring.count_le_capacity

theorem getElem_queued (ring : EventRing) (offset : Nat)
    (hoffset : offset < ring.queued.length) :
    ring.queued[offset] = ring.recordAt offset := by
  simp [queued]

/-- A new ring is empty, has the capacity asked for and has refused nothing. -/
theorem queued_of_create {memory : Memory} {capacity : UInt64}
    (h : create memory capacity = .ok ring) :
    ring.queued = [] ∧ ring.capacity = capacity ∧ ring.dropped = 0 := by
  rw [create] at h
  split at h
  · cases h
  split at h
  · cases h
  split at h
  · cases h
    refine ⟨?_, rfl, rfl⟩
    rw [queued_eq_nil_iff, ← tail_eq_head_iff]
  · cases h

@[simp]
theorem queued_with_dropped (ring : EventRing) (dropped : UInt64) :
    queued { ring with dropped } = ring.queued := rfl

/-! ## Pushing -/

/-- Without room nothing changes but the drop counter. -/
theorem push_of_full (hfull : ring.queued.length = ring.capacity.toNat) (event : Event) :
    ring.push event = (false, { ring with dropped := ring.dropped + 1 }) := by
  rw [length_queued, ← next_head_eq_tail_iff] at hfull
  simp [push, hfull]

/-- With room the event is written at `head`, which then moves on. -/
theorem push_of_room (hroom : ring.queued.length < ring.capacity.toNat) (event : Event) :
    ∃ after, ring.push event = (true, after) ∧
      after.slots = ring.slots.set ring.head.toNat event ring.head_lt ∧
      after.head = ring.next ring.head ∧ after.tail = ring.tail ∧
      after.capacity = ring.capacity ∧ after.dropped = ring.dropped := by
  have hnext : ring.next ring.head ≠ ring.tail := fun heq => by
    rw [next_head_eq_tail_iff, ← length_queued] at heq
    omega
  simp [push, hnext]

theorem count_of_advance {after : EventRing} (hroom : ring.count.toNat < ring.capacity.toNat)
    (hsize : after.slots.size = ring.slots.size) (hhead : after.head = ring.next ring.head)
    (htail : after.tail = ring.tail) : after.count.toNat = ring.count.toNat + 1 := by
  have hslots := ring.size_slots
  have hheadLt := ring.head_lt
  have htailLt := ring.tail_lt
  have hcursor' := after.head_eq_tail_add_count
  have hcount' := after.count_le_capacity
  have hslots' := after.size_slots
  rw [hsize, hhead, htail] at hcursor'
  rcases ring.next_cases hheadLt with ⟨hnext, hlt⟩ | ⟨hnext, hlast⟩ <;>
    rcases ring.head_eq_tail_add_count with hcursor | hcursor <;> omega

/-- The event goes behind those that were there, which stay as they were. -/
theorem queued_push_of_room (hroom : ring.queued.length < ring.capacity.toNat) (event : Event) :
    ∃ after, ring.push event = (true, after) ∧ after.queued = ring.queued ++ [event] ∧
      after.capacity = ring.capacity ∧ after.dropped = ring.dropped := by
  obtain ⟨after, hpush, hslots, hhead, htail, hcapacity, hdropped⟩ := push_of_room hroom event
  refine ⟨after, hpush, ?_, hcapacity, hdropped⟩
  have hsize : after.slots.size = ring.slots.size := by simp [hslots]
  have hplace : after.place = ring.place := by
    funext offset
    rw [place, place, htail, hsize]
  rw [length_queued] at hroom
  have hcount := count_of_advance hroom hsize hhead htail
  apply List.ext_getElem
  · simp [hcount]
  intro offset hnew hold
  rw [length_queued, hcount] at hnew
  rw [getElem_queued]
  simp only [recordAt, hplace, hslots]
  by_cases hlt : offset < ring.count.toNat
  · rw [Array.getElem_set_ne _ _ (place_ne_head hlt).symm,
      List.getElem_append_left (by simpa using hlt), getElem_queued, recordAt]
  · obtain rfl : offset = ring.count.toNat := by omega
    simp [place_count]

/-- A push is taken exactly while there is room. -/
theorem accepted_push (ring : EventRing) (event : Event) :
    (ring.push event).1 = decide (ring.queued.length < ring.capacity.toNat) := by
  rcases Nat.lt_or_eq_of_le ring.length_queued_le with hroom | hfull
  · obtain ⟨after, hpush, -⟩ := push_of_room hroom event
    rw [hpush, decide_eq_true hroom]
  · rw [push_of_full hfull, decide_eq_false (by omega)]

theorem queued_push (ring : EventRing) (event : Event) :
    (ring.push event).2.queued =
      ring.queued ++ if (ring.push event).1 then [event] else [] := by
  rcases Nat.lt_or_eq_of_le ring.length_queued_le with hroom | hfull
  · obtain ⟨after, hpush, hqueued, -⟩ := queued_push_of_room hroom event
    simp [hpush, hqueued]
  · simp [push_of_full hfull]

/-! ## Popping -/

theorem pop?_eq_none_iff (ring : EventRing) : ring.pop? = none ↔ ring.queued = [] := by
  rw [queued_eq_nil_iff, ← tail_eq_head_iff]
  simp [pop?]

/-- What is popped is the oldest event, and the others stay as they were. -/
theorem queued_of_pop? (h : ring.pop? = some (event, rest)) :
    ring.queued = event :: rest.queued ∧ rest.capacity = ring.capacity ∧
      rest.dropped = ring.dropped := by
  have hcount := count_of_pop? h
  have hsize := ring.size_slots
  have htail := ring.tail_lt
  rw [pop?] at h
  split at h
  · cases h
  simp only [Option.some.injEq, Prod.mk.injEq] at h
  obtain ⟨rfl, hrest⟩ := h
  refine ⟨?_, by rw [← hrest], by rw [← hrest]⟩
  have hslots : rest.slots = ring.slots := by rw [← hrest]
  have hplace (offset : Nat) : rest.place offset = ring.place (offset + 1) := by
    rw [place, place, ← hrest]
    simp only
    rw [toNat_next ring htail, Nat.mod_add_mod]
    congr 1
    omega
  apply List.ext_getElem
  · simp [← hcount]
  intro offset hold hnew
  rw [getElem_queued]
  cases offset with
  | zero => simp [recordAt, place, Nat.mod_eq_of_lt htail]
  | succ offset =>
    rw [List.getElem_cons_succ, getElem_queued]
    simp [recordAt, hplace, hslots]

end Telemetry.EventRing
