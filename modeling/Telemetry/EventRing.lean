import Telemetry.Event

/-!
# The event ring

A bounded first-in first-out queue of events that drops on overflow.  It is a
circle of `capacity + 1` slots with two cursors: `head` is where the next event
goes and `tail` is where the oldest one is.  The spare slot tells a full ring
(`head` is right behind `tail`) from an empty one (`head` is `tail`).  A push
into a full ring changes nothing but the drop counter.

Cursors are machine words.  A ring is only created when its slots fit in
memory, and that bound is what keeps the cursor arithmetic exact.
-/

namespace Telemetry

/-- The memory that slots are reserved from.  No block has half of all
addresses. -/
structure Memory where
  /-- Bytes in the largest block that can be reserved. -/
  limit : Nat
  limit_lt : limit < 0x8000000000000000 := by decide

/-- Why there is no block of so many bytes. -/
def Memory.fault (bytes : Nat) : MemoryFault :=
  if bytes < 0x8000000000000000 then .exhausted else .overLimit

structure EventRing where
  /-- Number of events that fit. -/
  capacity : UInt64
  slots : Array Event
  /-- The slot that the next event goes to. -/
  head : UInt64
  /-- The slot of the oldest event. -/
  tail : UInt64
  /-- Pushes refused so far, modulo 2^64. -/
  dropped : UInt64
  size_slots : slots.size = capacity.toNat + 1
  size_slots_lt : slots.size < 0x8000000000000000
  head_lt : head.toNat < slots.size
  tail_lt : tail.toNat < slots.size

namespace EventRing

/-- Bytes that one slot takes up. -/
def slotBytes : Nat := 144

/-- Number of slots in the circle. -/
def allocation (ring : EventRing) : UInt64 := ring.capacity + 1

/-- The slot after `index`, around the circle. -/
def next (ring : EventRing) (index : UInt64) : UInt64 :=
  let following := index + 1
  if following = ring.allocation then 0 else following

/-- Number of slots from `tail` up to `head`, around the circle. -/
def distance (ring : EventRing) (head tail : UInt64) : UInt64 :=
  (head + ring.allocation - tail) % ring.allocation

/-- Number of queued events. -/
def count (ring : EventRing) : UInt64 := ring.distance ring.head ring.tail

def isEmpty (ring : EventRing) : Bool := ring.count == 0

theorem toNat_allocation (ring : EventRing) :
    ring.allocation.toNat = ring.slots.size := by
  have := ring.size_slots
  have := ring.size_slots_lt
  simp only [allocation, UInt64.toNat_add]
  simp
  omega

theorem toNat_next (ring : EventRing) {index : UInt64}
    (hindex : index.toNat < ring.slots.size) :
    (ring.next index).toNat = (index.toNat + 1) % ring.slots.size := by
  have hsize := ring.size_slots_lt
  have hfollowing : (index + 1).toNat = index.toNat + 1 := by
    simp only [UInt64.toNat_add]
    simp
    omega
  unfold next
  by_cases hlast : index.toNat + 1 = ring.slots.size
  · have : index + 1 = ring.allocation := by
      apply UInt64.toNat_inj.mp
      rw [hfollowing, toNat_allocation, hlast]
    simp [this, hlast]
  · have : index + 1 ≠ ring.allocation := by
      intro heq
      apply hlast
      rw [← hfollowing, heq, toNat_allocation]
    simp only [this, if_false]
    rw [hfollowing, Nat.mod_eq_of_lt (by omega)]

theorem toNat_next_lt (ring : EventRing) {index : UInt64}
    (hindex : index.toNat < ring.slots.size) :
    (ring.next index).toNat < ring.slots.size := by
  rw [toNat_next ring hindex]
  exact Nat.mod_lt _ (by omega)

/-- The word arithmetic of `distance` computes the exact number of slots. -/
theorem toNat_distance (ring : EventRing) {head tail : UInt64}
    (hhead : head.toNat < ring.slots.size) (htail : tail.toNat < ring.slots.size) :
    (ring.distance head tail).toNat =
      (head.toNat + ring.slots.size - tail.toNat) % ring.slots.size := by
  have hsize := ring.size_slots_lt
  have hsum : (head + ring.allocation).toNat = head.toNat + ring.slots.size := by
    rw [UInt64.toNat_add, toNat_allocation]
    omega
  have hle : tail ≤ head + ring.allocation := by
    rw [UInt64.le_iff_toNat_le, hsum]
    omega
  rw [distance, UInt64.toNat_mod, toNat_allocation, UInt64.toNat_sub_of_le _ _ hle, hsum]

theorem toNat_count (ring : EventRing) :
    ring.count.toNat =
      (ring.head.toNat + ring.slots.size - ring.tail.toNat) % ring.slots.size :=
  toNat_distance ring ring.head_lt ring.tail_lt

/-- An empty ring for `capacity` events. -/
def create (memory : Memory) (capacity : UInt64) : Except Error EventRing :=
  if capacity = 0 then
    .error (.invalidArgument .zeroCapacity)
  else if capacity.toNat + 1 = UInt64.size then
    .error (.invalidArgument .capacityOverflow)
  else if hfits : (capacity.toNat + 1) * slotBytes ≤ memory.limit then
    have hlimit := memory.limit_lt
    .ok {
      capacity
      slots := Array.replicate (capacity.toNat + 1) Event.blank
      head := 0
      tail := 0
      dropped := 0
      size_slots := by simp
      size_slots_lt := by simp [slotBytes] at hfits ⊢; omega
      head_lt := by simp
      tail_lt := by simp }
  else
    .error (.allocationFailure s!"{capacity.toNat + 1} ring slots"
      (some (Memory.fault ((capacity.toNat + 1) * slotBytes))))

/-- Queues `event` behind the others, unless the ring is full. -/
def push (ring : EventRing) (event : Event) : Bool × EventRing :=
  let following := ring.next ring.head
  if following = ring.tail then
    (false, { ring with dropped := ring.dropped + 1 })
  else
    (true, { ring with
      slots := ring.slots.set ring.head.toNat event ring.head_lt
      head := following
      size_slots := by simpa using ring.size_slots
      size_slots_lt := by simpa using ring.size_slots_lt
      head_lt := by simpa using ring.toNat_next_lt ring.head_lt
      tail_lt := by simpa using ring.tail_lt })

/-- Like `push`, with a full ring reported as an error. -/
def tryPush (ring : EventRing) (event : Event) : Except Error Unit × EventRing :=
  match ring.push event with
  | (true, ring) => (.ok (), ring)
  | (false, ring) => (.error (.queueFull ring.capacity), ring)

/-- The oldest event and the ring without it. -/
def pop? (ring : EventRing) : Option (Event × EventRing) :=
  if ring.tail = ring.head then
    none
  else
    have := ring.tail_lt
    some (ring.slots[ring.tail.toNat], { ring with
      tail := ring.next ring.tail
      tail_lt := ring.toNat_next_lt ring.tail_lt })

/-- Like `pop?`, with an empty ring reported as an error. -/
def tryPop (ring : EventRing) : Except Error (Event × EventRing) :=
  match ring.pop? with
  | some result => .ok result
  | none => .error .queueEmpty

/-- Taking an event out leaves one fewer. -/
theorem count_of_pop? {ring rest : EventRing} {event : Event}
    (h : ring.pop? = some (event, rest)) :
    rest.count.toNat + 1 = ring.count.toNat := by
  unfold pop? at h
  split at h
  · cases h
  · next hne =>
    simp only [Option.some.injEq, Prod.mk.injEq] at h
    obtain ⟨-, rfl⟩ := h
    have hne : ring.tail.toNat ≠ ring.head.toNat := fun heq =>
      hne (UInt64.toNat_inj.mp heq)
    have hhead := ring.head_lt
    have htail := ring.tail_lt
    rw [toNat_count, toNat_count]
    simp only
    rw [toNat_next ring htail]
    rcases Nat.lt_or_ge (ring.tail.toNat + 1) ring.slots.size with hlt | hge
    · rw [Nat.mod_eq_of_lt hlt]
      rcases Nat.lt_or_ge ring.head.toNat ring.tail.toNat with hwrap | hstraight
      · rw [Nat.mod_eq_of_lt (by omega), Nat.mod_eq_of_lt (by omega)]
        omega
      · rw [show ring.head.toNat + ring.slots.size - (ring.tail.toNat + 1) =
            (ring.head.toNat - (ring.tail.toNat + 1)) + ring.slots.size by omega,
          show ring.head.toNat + ring.slots.size - ring.tail.toNat =
            (ring.head.toNat - ring.tail.toNat) + ring.slots.size by omega,
          Nat.add_mod_right, Nat.add_mod_right, Nat.mod_eq_of_lt (by omega),
          Nat.mod_eq_of_lt (by omega)]
        omega
    · rw [show ring.tail.toNat + 1 = ring.slots.size by omega, Nat.mod_self,
        Nat.sub_zero, Nat.add_mod_right, Nat.mod_eq_of_lt hhead,
        Nat.mod_eq_of_lt (by omega)]
      omega

/-- The writing end and the reading end of a ring.  They borrow the ring for as
long as they live and keep nothing of their own. -/
structure Handles where
  ring : EventRing

/-- Hands both ends out. -/
def split (ring : EventRing) : Handles := { ring }

/-- Giving both ends up frees the ring for another split. -/
def Handles.giveUp (handles : Handles) : EventRing := handles.ring

/-- The ring's capacity and counters on one line. -/
def summary (ring : EventRing) : String :=
  "RingBuffer \x7b capacity: " ++ toString ring.capacity ++
    ", count: " ++ toString ring.count ++
    ", dropped: " ++ toString ring.dropped ++ " \x7d"

end EventRing

end Telemetry
