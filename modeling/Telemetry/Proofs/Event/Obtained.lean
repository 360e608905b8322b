import Telemetry.Proofs.Ring.BoundedQueue
import Telemetry.Proofs.Wire.Verdicts

/-!
# Records that can be obtained

Two records are compared by all that is stored of them, the unused end of the buffer included,
while an observer sees no more than the payload.  The two agree because every record that can
be had was made from what it shows: reading bytes makes one, and a ring only hands out what
was pushed, whatever its slots held before.
-/

namespace Telemetry

/-! ## What comes out of a ring -/

namespace EventRing

/-- The event that is put in. -/
def Operation.event? : Operation → Option Event
  | .push event => some event
  | .tryPush event => some event
  | _ => none

/-- The event that is handed out. -/
def Reply.event? : Reply → Option Event
  | .popped event => event
  | .taken (.ok event) => some event
  | _ => none

variable {event : Event}

theorem queued_tryPush (ring : EventRing) (pushed : Event) :
    (ring.tryPush pushed).2.queued = (ring.push pushed).2.queued := by
  rw [tryPush]
  split <;> next hpush => rw [hpush]

theorem mem_queued_push {ring : EventRing} {pushed : Event}
    (h : event ∈ (ring.push pushed).2.queued) : event ∈ ring.queued ∨ pushed = event := by
  rw [queued_push, List.mem_append] at h
  apply h.imp_right
  intro hadded
  split at hadded
  · exact (List.mem_singleton.mp hadded).symm
  · cases hadded

theorem mem_of_pop? {ring rest : EventRing} {popped : Event}
    (hpop : ring.pop? = some (popped, rest)) (h : event ∈ rest.queued ∨ popped = event) :
    event ∈ ring.queued := by
  rw [(queued_of_pop? hpop).1, List.mem_cons]
  exact h.symm.imp_left Eq.symm

variable {handles : Handles} {operation : Operation} {operations : List Operation}

/-- The two ways to pop differ in how they say that there is nothing. -/
theorem perform_tryPop (handles : Handles) :
    (handles.perform .tryPop).2 = (handles.perform .pop).2 ∧
      (handles.perform .tryPop).1.event? = (handles.perform .pop).1.event? := by
  simp only [Handles.perform, tryPop]
  cases handles.ring.pop? <;> exact ⟨rfl, rfl⟩

theorem mem_of_perform_pop
    (h : event ∈ (handles.perform .pop).2.ring.queued ∨
      (handles.perform .pop).1.event? = some event) : event ∈ handles.ring.queued := by
  cases hpop : handles.ring.pop? with
  | none => simpa only [Handles.perform, hpop, Reply.event?, reduceCtorEq, or_false] using h
  | some result =>
    obtain ⟨popped, rest⟩ := result
    simp only [Handles.perform, hpop, Reply.event?, Option.some.injEq] at h
    exact mem_of_pop? hpop h

/-- One operation: what is queued afterwards or handed out was queued before or is put in. -/
theorem mem_of_perform
    (h : event ∈ (handles.perform operation).2.ring.queued ∨
      (handles.perform operation).1.event? = some event) :
    event ∈ handles.ring.queued ∨ operation.event? = some event := by
  cases operation with
  | push pushed =>
    simp only [Handles.perform, Reply.event?, reduceCtorEq, or_false] at h
    simpa only [Operation.event?, Option.some.injEq] using mem_queued_push h
  | tryPush pushed =>
    simp only [Handles.perform, Reply.event?, reduceCtorEq, or_false, queued_tryPush] at h
    simpa only [Operation.event?, Option.some.injEq] using mem_queued_push h
  | pop => exact .inl (mem_of_perform_pop h)
  | tryPop =>
    left
    apply mem_of_perform_pop
    rwa [← (perform_tryPop handles).1, ← (perform_tryPop handles).2]
  | count | isEmpty | dropped | resplit =>
    left
    exact h.resolve_right (Option.some_ne_none event).symm

/-- A whole run: what is left in the ring or was handed out was there at the start or was put
in on the way. -/
theorem mem_of_run
    (h : event ∈ (run Handles.perform handles operations).2.ring.queued ∨
      ∃ reply ∈ (run Handles.perform handles operations).1, reply.event? = some event) :
    event ∈ handles.ring.queued ∨ ∃ operation ∈ operations, operation.event? = some event := by
  induction operations generalizing handles with
  | nil => simpa only [run, List.not_mem_nil, false_and, exists_false, or_false] using h
  | cons operation operations ih =>
    simp only [run, List.mem_cons, exists_eq_or_imp] at h ⊢
    rw [← or_assoc]
    rcases h with hleft | hreply | hlater
    · exact (ih (.inl hleft)).imp_left fun hqueued => mem_of_perform (.inl hqueued)
    · exact .inl (mem_of_perform (.inr hreply))
    · exact (ih (.inr hlater)).imp_left fun hqueued => mem_of_perform (.inl hqueued)

end EventRing

namespace Event

/-! ## What is made shows all of itself -/

theorem getElem_padded {payload : Bytes} (fits : payload.length ≤ maxPayload) {index : Nat}
    (hindex : index < maxPayload) (hpast : payload.length ≤ index) :
    (padded payload fits)[index] = 0 := by
  simp [padded, List.getElem_append_right hpast]

section Made

variable {id : UInt32} {level : Level} {payload : Bytes} {timestamp : UInt64} {event : Event}

/-- Every field of a record that was made, the buffer as a whole. -/
theorem fields_of_make (h : make id level payload timestamp = .ok event) :
    event.id = id ∧ event.level = level ∧ event.timestamp = timestamp ∧
      event.size = payload.length ∧
      ∃ fits : payload.length ≤ maxPayload, event.buffer = padded payload fits := by
  rw [make] at h
  split at h
  · next fits =>
    cases h
    exact ⟨rfl, rfl, rfl, rfl, fits, rfl⟩
  · cases h

/-- A record is what is made of all that it shows. -/
theorem make_shown_of_make (h : make id level payload timestamp = .ok event) :
    make event.id event.level event.payload event.timestamp = .ok event := by
  obtain ⟨hid, hlevel, htimestamp, -⟩ := fields_of_make h
  rwa [hid, hlevel, htimestamp, payload_of_make h]

theorem size_le_of_make (h : make id level payload timestamp = .ok event) :
    event.size ≤ maxPayload := by
  obtain ⟨-, -, -, hsize, fits, -⟩ := fields_of_make h
  rwa [hsize]

theorem zero_of_make (h : make id level payload timestamp = .ok event) {index : Nat}
    (hindex : index < maxPayload) (hpast : event.size ≤ index) : event.buffer[index] = 0 := by
  obtain ⟨-, -, -, hsize, fits, hbuffer⟩ := fields_of_make h
  rw [hsize] at hpast
  simp only [hbuffer]
  exact getElem_padded fits hindex hpast

end Made

theorem make_blank : make 0 .debug [] 0 = .ok blank := rfl

/-- What is read from bytes is made on the spot. -/
theorem make_shown_of_decode {bytes : Bytes} {event : Event} {used : Nat}
    (h : decode bytes = .ok (event, used)) :
    make event.id event.level event.payload event.timestamp = .ok event := by
  simp only [decode] at h
  repeat' split at h
  all_goals first | contradiction | skip
  next hmake =>
    cases h
    exact make_shown_of_make hmake

/-! ## Records that can be obtained -/

/-- The record is made, the blank one, read from bytes, or handed out by a ring after some
run in which only such records are pushed. -/
inductive Obtained : Event → Prop
  | made {id : UInt32} {level : Level} {payload : Bytes} {timestamp : UInt64} {event : Event}
      (h : make id level payload timestamp = .ok event) : Obtained event
  | blank : Obtained blank
  | read {bytes : Bytes} {event : Event} {used : Nat} (h : decode bytes = .ok (event, used)) :
      Obtained event
  | popped {memory : Memory} {capacity : UInt64} {ring : EventRing}
      {operations : List EventRing.Operation} {reply : EventRing.Reply} {event : Event}
      (hring : EventRing.create memory capacity = .ok ring)
      (hpushed : ∀ operation ∈ operations, ∀ pushed, operation.event? = some pushed →
        Obtained pushed)
      (hreply : reply ∈ (EventRing.run EventRing.Handles.perform ring.split operations).1)
      (hevent : reply.event? = some event) : Obtained event

/-- However a record is obtained, it was once made from what it shows.  A ring starts empty,
so that what it hands out was pushed on the way. -/
theorem Obtained.make_shown {event : Event} (h : Obtained event) :
    make event.id event.level event.payload event.timestamp = .ok event := by
  induction h with
  | made h => exact make_shown_of_make h
  | blank => exact make_shown_of_make make_blank
  | read h => exact make_shown_of_decode h
  | popped hring hpushed hreply hevent ih =>
    have hstart := (EventRing.queued_of_create hring).1
    rcases EventRing.mem_of_run (.inr ⟨_, hreply, hevent⟩) with hqueued | hput
    · rw [EventRing.split, hstart] at hqueued
      cases hqueued
    · obtain ⟨operation, hoperation, hput⟩ := hput
      exact ih operation hoperation _ hput

/-! ## What is compared and what is shown -/

/-- All that is stored is the same, to the end of the buffer. -/
structure StoredAlike (left right : Event) : Prop where
  id_eq : left.id = right.id
  level_eq : left.level = right.level
  size_eq : left.size = right.size
  timestamp_eq : left.timestamp = right.timestamp
  buffer_eq : left.buffer = right.buffer

/-- An observer finds the same in both. -/
structure ShownAlike (left right : Event) : Prop where
  id_eq : left.id = right.id
  level_eq : left.level = right.level
  timestamp_eq : left.timestamp = right.timestamp
  payload_eq : left.payload = right.payload

variable {left right : Event}

theorem storedAlike_iff : StoredAlike left right ↔ left = right := by
  constructor
  · intro h
    cases left
    cases right
    simp only [mk.injEq]
    exact ⟨h.id_eq, h.level_eq, h.timestamp_eq, h.size_eq, h.buffer_eq⟩
  · rintro rfl
    exact ⟨rfl, rfl, rfl, rfl, rfl⟩

/-- What makes the one makes the other. -/
theorem Obtained.eq_iff_shownAlike (hleft : Obtained left) (hright : Obtained right) :
    left = right ↔ ShownAlike left right := by
  constructor
  · rintro rfl
    exact ⟨rfl, rfl, rfl, rfl⟩
  · intro h
    have hmake := hleft.make_shown
    rw [h.id_eq, h.level_eq, h.timestamp_eq, h.payload_eq, hright.make_shown] at hmake
    exact (Except.ok.inj hmake).symm

theorem appendTo_eq_iff (out : Bytes) :
    left.appendTo out = right.appendTo out ↔ left = right := by
  rw [appendTo_eq, appendTo_eq, List.append_cancel_left_eq]
  exact encode_injective.eq_iff

/-- Of records that can be obtained the payload ends inside the buffer, and nothing but zeros
is behind it.  Two of them compare equal, by all that is stored, exactly when an observer finds
the same in both, and exactly when the same bytes are written for both.  The blank record is
the one made of the least. -/
theorem equal_iff_shown_alike (hleft : Obtained left) (hright : Obtained right) :
    left.size ≤ 128 ∧
      (∀ index (hindex : index < maxPayload), left.size ≤ index → left.buffer[index] = 0) ∧
      ((left == right) = true ↔ StoredAlike left right) ∧
      ((left == right) = true ↔ ShownAlike left right) ∧
      (∀ out, (left == right) = true ↔ left.appendTo out = right.appendTo out) ∧
      make 0 .debug [] 0 = .ok blank := by
  rw [beq_iff_eq]
  refine ⟨size_le_of_make hleft.make_shown, ?_, storedAlike_iff.symm,
    hleft.eq_iff_shownAlike hright, fun out => (appendTo_eq_iff out).symm, make_blank⟩
  intro index hindex hpast
  exact zero_of_make hleft.make_shown hindex hpast

/-- A record read from bytes with a reserved byte that is set, and the same one popped from a
slot that held a full payload before. -/
theorem read_equals_popped_behind_longer :
    let bytes : Bytes := [0, 0, 0, 7, 2, 255, 0, 2, 0, 0, 0, 0, 0, 0, 0, 5, 1, 2]
    let operations (long short : Event) : List EventRing.Operation :=
      [.push long, .pop, .push long, .pop, .push short, .pop]
    ∃ long short ring read, make 1 .error (List.replicate 128 255) 0 = .ok long ∧
      make 7 .warning [1, 2] 5 = .ok short ∧
      EventRing.create ⟨1000, by decide⟩ 1 = .ok ring ∧
      .popped (some short) ∈
        (EventRing.run EventRing.Handles.perform ring.split (operations long short)).1 ∧
      decode (bytes ++ [9]) = .ok (read, 18) ∧
      (read == short) = true ∧ read.buffer[2] = 0 ∧
      read.appendTo [42] = short.appendTo [42] := by
  intro bytes operations
  obtain ⟨long, hlong⟩ : ∃ long, make 1 .error (List.replicate 128 255) 0 = .ok long := by
    rw [make, dif_pos (by rw [List.length_replicate, maxPayload])]
    exact ⟨_, rfl⟩
  obtain ⟨short, hshort⟩ : ∃ short, make 7 .warning [1, 2] 5 = .ok short := ⟨_, rfl⟩
  obtain ⟨ring, hring⟩ : ∃ ring, EventRing.create ⟨1000, by decide⟩ 1 = .ok ring := ⟨_, rfl⟩
  have hreply : .popped (some short) ∈
      (EventRing.run EventRing.Handles.perform ring.split (operations long short)).1 := by
    have hstart : EventRing.Represents ring.split.ring {} :=
      EventRing.represents_of_create hring
    rw [(hstart.run (operations long short)).1]
    apply List.mem_of_getLast?
    rfl
  have hpopped : Obtained short := by
    refine .popped hring ?_ hreply rfl
    simp [operations, EventRing.Operation.event?, Obtained.made hlong, Obtained.made hshort]
  have hrecord : IsRecord bytes := ⟨by decide, by decide, by decide, by decide⟩
  obtain ⟨read, hdescribes, hread⟩ := decode_append hrecord
  have hread : decode (bytes ++ [9]) = .ok (read, 18) := hread [9]
  have hshown : ShownAlike read short := by
    cases hshort
    exact ⟨UInt32.toNat_inj.mp hdescribes.id_eq,
      Level.code_injective (UInt8.toNat_inj.mp hdescribes.level_eq),
      UInt64.toNat_inj.mp hdescribes.timestamp_eq, hdescribes.payload_eq⟩
  have hsize : read.size ≤ 2 := by
    rw [hdescribes.size_eq]
    decide
  obtain ⟨-, hzero, -, hequal, hwritten, -⟩ := equal_iff_shown_alike (.read hread) hpopped
  exact ⟨long, short, ring, read, hlong, hshort, hring, hreply, hread, hequal.mpr hshown,
    hzero 2 (by decide) hsize, (hwritten [42]).mp (hequal.mpr hshown)⟩

end Event

end Telemetry
