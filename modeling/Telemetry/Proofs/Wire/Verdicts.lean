import Telemetry.Proofs.Wire.Delimiting

/-!
# What is said of an event

Four things can be wrong with the bytes that an event is read from, and the first of them
decides: no room for the fixed part, an unknown level, a size that no record can hold, a
payload that is not all there.  Otherwise the bytes are those that the event is written as,
but for the reserved one, which nothing depends on.
-/

namespace Telemetry

namespace Event

/-! ## The verdict -/

/-- What is to be said of the event at the front of `bytes`: the first fault that there is,
or the event and the length of its record, which is what the event is written as with the
reserved byte set to 0. -/
inductive Verdict (bytes : Bytes) : Except Error (Event × Nat) → Prop
  | short (h : bytes.length < 16) : Verdict bytes (.error (.truncated 16 bytes.length))
  | level {code : UInt8} {size : Nat} (hfixed : FixedPart bytes code size) (h : 3 < code) :
      Verdict bytes (.error (.invalidArgument (.unknownLevel code)))
  | size {code : UInt8} {size : Nat} (hfixed : FixedPart bytes code size) (hlevel : code ≤ 3)
      (h : 128 < size) : Verdict bytes (.error (.payloadOutOfRange size 128))
  | payload {code : UInt8} {size : Nat} (hfixed : FixedPart bytes code size)
      (hlevel : code ≤ 3) (hsize : size ≤ 128) (h : bytes.length < 16 + size) :
      Verdict bytes (.error (.truncated (16 + size) bytes.length))
  | accepted {code : UInt8} {size : Nat} (event : Event) (hfixed : FixedPart bytes code size)
      (hlevel : code ≤ 3) (hsize : size ≤ 128) (hlength : 16 + size ≤ bytes.length)
      (hencode : event.encode = (bytes.take (16 + size)).set 5 0) :
      Verdict bytes (.ok (event, 16 + size))

theorem encode_injective : Function.Injective encode := by
  intro event other heq
  apply eq_of_encode_isPrefix
  rw [heq]

/-- A record is read as the event that is written as it, whatever follows it. -/
theorem decode_of_isRecord {record : Bytes} {event : Event} (h : IsRecord record)
    (hencode : event.encode = record.set 5 0) (rest : Bytes) :
    decode (record ++ rest) = .ok (event, record.length) := by
  obtain ⟨other, hdescribes, hdecode⟩ := decode_append h
  rw [encode_injective (hencode.trans (hdescribes.encode_eq h).symm), hdecode]

variable {bytes : Bytes}

theorem Verdict.decode_eq {result : Except Error (Event × Nat)} (h : Verdict bytes result) :
    decode bytes = result := by
  cases h with
  | short h => exact if_pos h
  | level hfixed h => rw [decode_of_fixedPart hfixed, Level.ofCode?_eq_none h]
  | size hfixed hlevel h =>
    obtain ⟨level, hlevel⟩ := Level.exists_ofCode? hlevel
    rw [decode_of_fixedPart hfixed, hlevel]
    exact if_pos h
  | payload hfixed hlevel hsize h =>
    obtain ⟨level, hlevel⟩ := Level.exists_ofCode? hlevel
    rw [decode_of_fixedPart hfixed, hlevel]
    exact (if_neg (not_lt.mpr hsize)).trans (if_pos h)
  | @accepted code size event hfixed hlevel hsize hlength hencode =>
    have hrecord := hfixed.isRecord hlevel hsize hlength
    have hdecode := decode_of_isRecord hrecord hencode (bytes.drop (16 + size))
    rwa [List.take_append_drop, List.length_take, Nat.min_eq_left hlength] at hdecode

/-- Something is to be said of all bytes. -/
theorem exists_verdict (bytes : Bytes) : ∃ result, Verdict bytes result := by
  by_cases hshort : bytes.length < 16
  · exact ⟨_, .short hshort⟩
  obtain ⟨code, size, hfixed⟩ := exists_fixedPart (not_lt.mp hshort)
  by_cases hlevel : 3 < code
  · exact ⟨_, .level hfixed hlevel⟩
  have hlevel : code ≤ 3 := UInt8.not_lt.mp hlevel
  by_cases hsize : 128 < size
  · exact ⟨_, .size hfixed hlevel hsize⟩
  have hsize : size ≤ 128 := not_lt.mp hsize
  by_cases hmissing : bytes.length < 16 + size
  · exact ⟨_, .payload hfixed hlevel hsize hmissing⟩
  have hlength : 16 + size ≤ bytes.length := not_lt.mp hmissing
  have hrecord := hfixed.isRecord hlevel hsize hlength
  obtain ⟨event, hdescribes, -⟩ := decode_append hrecord
  exact ⟨_, .accepted event hfixed hlevel hsize hlength (hdescribes.encode_eq hrecord)⟩

theorem decode_eq_iff_verdict {result : Except Error (Event × Nat)} :
    decode bytes = result ↔ Verdict bytes result := by
  constructor
  · rintro rfl
    obtain ⟨result, hresult⟩ := exists_verdict bytes
    rwa [hresult.decode_eq]
  · exact Verdict.decode_eq

/-! ## What has no part in it -/

/-- The reserved byte and the bytes behind the record have no part in what is read. -/
theorem decode_congr {other : Bytes} {event : Event} {used : Nat}
    (h : decode bytes = .ok (event, used))
    (hagree : ∀ index < used, index ≠ 5 → other[index]? = bytes[index]?) :
    decode other = .ok (event, used) := by
  cases decode_eq_iff_verdict.mp h with
  | @accepted code size _ hfixed hlevel hsize hlength hencode =>
    have hfront : ∀ index < 16, index ≠ 5 → other[index]? = bytes[index]? :=
      fun index hindex => hagree index (by omega)
    have hinside : 16 + size ≤ other.length := length_le_of_agree (by omega) hlength hagree
    refine (Verdict.accepted event (hfixed.congr hfront) hlevel hsize hinside ?_).decode_eq
    rw [hencode]
    apply List.ext_getElem?
    intro index
    rw [List.getElem?_set, List.getElem?_set, List.getElem?_take, List.getElem?_take,
      List.length_take, List.length_take, Nat.min_eq_left hlength, Nat.min_eq_left hinside]
    split
    · rfl
    · next hreserved =>
      split
      · next hindex => exact (hagree index hindex (Ne.symm hreserved)).symm
      · rfl

/-- A payload that is found too long for a record is not taken for a record before. -/
theorem decode_ne_error_of_make {id : UInt32} {level : Level} {payload : Bytes}
    {timestamp : UInt64} {error : Error} (h : make id level payload timestamp = .error error) :
    decode bytes ≠ .error error := by
  intro hdecode
  rw [make] at h
  split at h
  · cases h
  · cases h
    cases decode_eq_iff_verdict.mp hdecode

/-- What is read from bytes is the one thing to be said of the event at their front: the
first fault, or the event that the front is written from.  The reserved byte and all bytes
behind the record have no part in the event.  Nothing is ever left for the record itself to
refuse: none of its errors comes out. -/
theorem decode_tells_first_fault (bytes : Bytes) :
    (∀ result, decode bytes = result ↔ Verdict bytes result) ∧
      (∀ event used, decode bytes = .ok (event, used) →
        ∀ other : Bytes, (∀ index < used, index ≠ 5 → other[index]? = bytes[index]?) →
          decode other = .ok (event, used)) ∧
      ∀ id level payload timestamp error, make id level payload timestamp = .error error →
        decode bytes ≠ .error error :=
  ⟨fun _ => decode_eq_iff_verdict, fun _ _ hdecode _ => decode_congr hdecode,
    fun _ _ _ _ _ => decode_ne_error_of_make⟩

/-- An unknown level in front of a size out of range, this one in front of a missing payload;
and a record that is read the same with another reserved byte and another byte behind it. -/
theorem first_fault_and_reserved_byte :
    let front (level reserved size : UInt8) : Bytes :=
      [0, 0, 0, 1, level, reserved, 0, size] ++ List.replicate 8 0
    decode (front 4 0 200) = .error (.invalidArgument (.unknownLevel 4)) ∧
      decode (front 3 0 200) = .error (.payloadOutOfRange 200 128) ∧
      decode (front 3 0 128) = .error (.truncated 144 16) ∧
      (∃ error, make 1 .error (List.replicate 200 0) 0 = .error error ∧
        decode (front 3 0 200) ≠ .error error) ∧
      ∃ event, decode (front 2 7 1 ++ [42, 9]) = .ok (event, 17) ∧
        event.encode = front 2 0 1 ++ [42] ∧
        decode (front 2 255 1 ++ [42, 5]) = .ok (event, 17) := by
  intro front
  have hfixed (level reserved size : UInt8) (rest : Bytes) :
      FixedPart (front level reserved size ++ rest) level size.toNat :=
    ⟨by simp [front], rfl, 0, size, rfl, rfl, by simp⟩
  have hlong : make 1 .error (List.replicate 200 0) 0 =
      .error (.invalidArgument (.payloadTooLong 200)) := by
    rw [make, dif_neg (by rw [List.length_replicate]; decide), List.length_replicate]
  obtain ⟨hlevel, -, -⟩ := decode_tells_first_fault (front 4 0 200 ++ [])
  obtain ⟨hsize, -, hmake⟩ := decode_tells_first_fault (front 3 0 200 ++ [])
  obtain ⟨hpayload, -, -⟩ := decode_tells_first_fault (front 3 0 128 ++ [])
  obtain ⟨hread, hagree, -⟩ := decode_tells_first_fault (front 2 7 1 ++ [42, 9])
  refine ⟨(hlevel _).mpr (.level (hfixed 4 0 200 []) (by decide)),
    (hsize _).mpr (.size (hfixed 3 0 200 []) (by decide) (by decide)),
    (hpayload _).mpr (.payload (hfixed 3 0 128 []) (by decide) (by decide) (by decide)),
    ⟨_, hlong, hmake _ _ _ _ _ hlong⟩, ?_⟩
  obtain ⟨event, hevent⟩ : ∃ event, make 1 .warning [42] 0 = .ok event := ⟨_, rfl⟩
  have hencode : event.encode = front 2 0 1 ++ [42] := by
    cases hevent
    rfl
  have hdecode := (hread _).mpr
    (.accepted event (hfixed 2 7 1 [42, 9]) (by decide) (by decide) (by decide) hencode)
  exact ⟨event, hdecode, hencode, hagree _ _ hdecode _ (by decide)⟩

end Event

end Telemetry
