import Telemetry.Proofs.Wire.Writing

/-!
# Events show their own end

An event is written behind whatever is there already, and its size stands in front of its
payload.  A reader that has all of it takes exactly that much, whatever follows; one that
has less sees that something is missing.  So no event is written as the front of another.
-/

namespace Telemetry

/-! ## Writing in place -/

/-- A field takes the place of the first of the zeros that stand in for it. -/
theorem overwrite_room {front field : Bytes} {offset room : Nat}
    (hoffset : offset = front.length) :
    overwrite (front ++ List.replicate room 0) offset field =
      front ++ field ++ List.replicate (room - field.length) 0 := by
  subst hoffset
  rw [overwrite, List.take_left, List.drop_length_add_append, List.drop_replicate]

namespace Event

/-- What is there stays, and the record comes behind it. -/
theorem appendTo_eq (event : Event) (out : Bytes) : event.appendTo out = out ++ event.encode := by
  simp only [appendTo, fixedFields, List.foldl_cons, List.foldl_nil]
  rw [overwrite_room (by simp), overwrite_room (by simp), overwrite_room (by simp),
    overwrite_room (by simp), overwrite_room (by simp)]
  simp [encode, fixedLength]

/-! ## Records cut short -/

/-- A record that is not all there is refused, with the number of bytes that it takes as far
as that is known, which it is as soon as the fixed part is there. -/
theorem decode_take_of_isRecord {record : Bytes} (h : IsRecord record) {size : Nat}
    (hcut : size < record.length) :
    decode (record.take size) =
      .error (.truncated (if size < 16 then 16 else record.length) size) := by
  have hlength : (record.take size).length = size := by
    rw [List.length_take]
    omega
  by_cases hfixed : size < 16
  · have hshort : (record.take size).length < fixedLength := by rwa [hlength]
    rw [decode, if_pos hshort, hlength, if_pos hfixed]
    rfl
  · have hthere : 16 ≤ size := not_lt.mp hfixed
    obtain ⟨code, hcode, hwhole⟩ := exists_fixedPart_of_isRecord h
    obtain ⟨level, hlevel⟩ := Level.exists_ofCode? hcode
    have hfront : FixedPart (record.take size) code (numberAt record 6 2) :=
      hwhole.congr fun index hindex _ => List.getElem?_take_of_lt (by omega)
    rw [decode_of_fixedPart hfront, hlevel, hlength, ← h.length_eq, if_neg hfixed]
    exact (if_neg (not_lt.mpr h.size_le)).trans (if_pos hcut)

/-! ## Written events -/

/-- An event is read as it was written, whatever follows. -/
theorem decode_encode_append (event : Event) (rest : Bytes) :
    decode (event.encode ++ rest) = .ok (event, event.encodedLength) := by
  obtain ⟨other, hdescribes, hdecode⟩ := decode_append event.isRecord_encode
  rw [hdecode, length_encode, hdescribes.unique event.describes_encode]

theorem eq_of_encode_isPrefix {event other : Event} (h : event.encode <+: other.encode) :
    event = other := by
  obtain ⟨rest, hrest⟩ := h
  have hevent := decode_encode_append event rest
  have hother := decode_encode_append other []
  rw [List.append_nil, ← hrest, hevent] at hother
  cases hother
  rfl

/-- Writing an event leaves what is there as it is and adds the event's own length.  From
there the event is read again, whatever follows; as long as a part of it is missing that is
what the reader says; and the bytes of another event begin otherwise. -/
theorem encoding_shows_its_end (event : Event) :
    (∀ out, event.appendTo out = out ++ event.encode) ∧
      event.encode.length = event.encodedLength ∧
      (∀ rest, decode (event.encode ++ rest) = .ok (event, event.encodedLength)) ∧
      (∀ size < event.encodedLength,
        decode (event.encode.take size) =
          .error (.truncated (if size < 16 then 16 else event.encodedLength) size)) ∧
      ∀ other : Event, event.encode <+: other.encode → event = other := by
  refine ⟨event.appendTo_eq, event.length_encode, event.decode_encode_append, ?_,
    fun _ => eq_of_encode_isPrefix⟩
  intro size hcut
  rw [← length_encode] at hcut ⊢
  exact decode_take_of_isRecord event.isRecord_encode hcut

/-- Two payload bytes, cut in the fixed part and behind it; and an event whose payload is
longer by one byte. -/
theorem payload_behind_cut :
    ∃ event longer, make 7 .warning [1, 2] 5 = .ok event ∧
      make 7 .warning [1, 2, 3] 5 = .ok longer ∧
      decode (event.encode.take 15) = .error (.truncated 16 15) ∧
      decode (event.encode.take 17) = .error (.truncated 18 17) ∧
      ¬ event.encode <+: longer.encode := by
  obtain ⟨event, hevent⟩ : ∃ event, make 7 .warning [1, 2] 5 = .ok event := ⟨_, rfl⟩
  obtain ⟨longer, hlonger⟩ : ∃ longer, make 7 .warning [1, 2, 3] 5 = .ok longer := ⟨_, rfl⟩
  obtain ⟨-, -, -, hcut, hother⟩ := encoding_shows_its_end event
  refine ⟨event, longer, hevent, hlonger, ?_⟩
  cases hevent
  cases hlonger
  refine ⟨hcut 15 (by decide), hcut 17 (by decide), ?_⟩
  intro hbegins
  have hsize := congrArg Event.size (hother _ hbegins)
  cases hsize

end Event

end Telemetry
