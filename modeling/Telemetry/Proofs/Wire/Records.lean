import Telemetry.Event.Wire
import Telemetry.Proofs.Wire.Fields

/-!
# Payloads and the records they split into

What a record is can be said of its bytes alone: a fixed part with a known level
and a size in range, and as many bytes as the size says.  A record shows its own
end, so a payload splits into records in one way at most.  The reader accepts
exactly the payloads that split, and where one does not it reports what is wrong
with the first stretch that is no record.
-/

namespace Telemetry

/-- One event record and nothing behind it. -/
structure IsRecord (bytes : Bytes) : Prop where
  fixed_le : 16 ≤ bytes.length
  level_le : numberAt bytes 4 1 ≤ 3
  size_le : numberAt bytes 6 2 ≤ 128
  length_eq : bytes.length = 16 + numberAt bytes 6 2

/-- The payload is these records, one behind the other. -/
structure Splits (payload : Bytes) (records : List Bytes) : Prop where
  flatten_eq : records.flatten = payload
  isRecord : ∀ record ∈ records, IsRecord record

/-- The fields of the event are those found in the record. -/
structure Describes (record : Bytes) (event : Event) : Prop where
  id_eq : event.id.toNat = numberAt record 0 4
  level_eq : event.level.code.toNat = numberAt record 4 1
  size_eq : event.size = numberAt record 6 2
  timestamp_eq : event.timestamp.toNat = numberAt record 8 8
  payload_eq : event.payload = record.drop 16

/-! ## One way to split -/

/-- The size lies in the fixed part, so a record is known from its front. -/
theorem IsRecord.eq_of_append_eq {first second rest rest' : Bytes} (hfirst : IsRecord first)
    (hsecond : IsRecord second) (h : first ++ rest = second ++ rest') : first = second := by
  have hfirst_le := hfirst.fixed_le
  have hsecond_le := hsecond.fixed_le
  have hsize : numberAt first 6 2 = numberAt second 6 2 :=
    calc numberAt first 6 2
        = numberAt (first ++ rest) 6 2 := (numberAt_append rest (by omega)).symm
      _ = numberAt (second ++ rest') 6 2 := by rw [h]
      _ = numberAt second 6 2 := numberAt_append rest' (by omega)
  apply (List.append_inj h _).1
  rw [hfirst.length_eq, hsecond.length_eq, hsize]

theorem IsRecord.ne_nil {record : Bytes} (h : IsRecord record) : record ≠ [] := by
  intro hnil
  have hle := h.fixed_le
  rw [hnil] at hle
  cases hle

theorem splits_nil : Splits [] [] where
  flatten_eq := rfl
  isRecord := by simp

theorem Splits.cons {record rest : Bytes} {records : List Bytes} (hrecord : IsRecord record)
    (h : Splits rest records) : Splits (record ++ rest) (record :: records) where
  flatten_eq := by rw [List.flatten_cons, h.flatten_eq]
  isRecord := by simpa using ⟨hrecord, h.isRecord⟩

theorem Splits.of_cons {payload record : Bytes} {records : List Bytes}
    (h : Splits payload (record :: records)) :
    IsRecord record ∧ Splits records.flatten records ∧ payload = record ++ records.flatten :=
  ⟨h.isRecord record List.mem_cons_self,
    ⟨rfl, fun other hmem => h.isRecord other (List.mem_cons_of_mem _ hmem)⟩,
    h.flatten_eq.symm⟩

theorem Splits.eq_nil {records : List Bytes} (h : Splits [] records) : records = [] := by
  cases records with
  | nil => rfl
  | cons record records =>
    obtain ⟨hrecord, -, hpayload⟩ := h.of_cons
    exact absurd (List.append_eq_nil_iff.mp hpayload.symm).1 hrecord.ne_nil

theorem Splits.unique {payload : Bytes} {records others : List Bytes}
    (h : Splits payload records) (hothers : Splits payload others) : records = others := by
  induction records generalizing payload others with
  | nil =>
    have hpayload : payload = [] := h.flatten_eq.symm
    rw [hpayload] at hothers
    exact hothers.eq_nil.symm
  | cons record records ih =>
    cases others with
    | nil =>
      have hpayload : payload = [] := hothers.flatten_eq.symm
      rw [hpayload] at h
      exact h.eq_nil
    | cons other others =>
      obtain ⟨hrecord, hrest, hpayload⟩ := h.of_cons
      obtain ⟨hother, hrest', hpayload'⟩ := hothers.of_cons
      have hjoined : record ++ records.flatten = other ++ others.flatten :=
        hpayload.symm.trans hpayload'
      have hfirst : record = other := hrecord.eq_of_append_eq hother hjoined
      subst hfirst
      rw [← List.append_cancel_left hjoined] at hrest'
      rw [ih hrest hrest']

/-! ## Levels and payloads -/

namespace Level

theorem code_of_ofCode? {code : UInt8} {level : Level} (h : ofCode? code = some level) :
    level.code = code := by
  simpa using List.find?_some h

/-- The codes are the bytes up to 3. -/
theorem exists_ofCode? {code : UInt8} (h : code ≤ 3) : ∃ level, ofCode? code = some level := by
  have hcode : code = 0 ∨ code = 1 ∨ code = 2 ∨ code = 3 := by
    rw [UInt8.le_iff_toNat_le] at h
    simp only [← UInt8.toNat_inj, UInt8.reduceToNat] at h ⊢
    omega
  rcases hcode with rfl | rfl | rfl | rfl
  · exact ⟨debug, rfl⟩
  · exact ⟨info, rfl⟩
  · exact ⟨warning, rfl⟩
  · exact ⟨error, rfl⟩

theorem code_le (level : Level) : level.code ≤ 3 := by
  cases level <;> decide

theorem ofCode?_eq_none {code : UInt8} (h : 3 < code) : ofCode? code = none := by
  cases hlevel : ofCode? code with
  | none => rfl
  | some level =>
    have hle := level.code_le
    rw [code_of_ofCode? hlevel] at hle
    exact absurd h (UInt8.not_lt.mpr hle)

end Level

namespace Event

/-- A payload that fits is kept as it is. -/
theorem exists_make {payload : Bytes} (id : UInt32) (level : Level) (timestamp : UInt64)
    (fits : payload.length ≤ maxPayload) :
    ∃ event, make id level payload timestamp = .ok event ∧ event.id = id ∧
      event.level = level ∧ event.timestamp = timestamp ∧ event.size = payload.length ∧
      event.payload = payload := by
  obtain ⟨event, hmake⟩ : ∃ event, make id level payload timestamp = .ok event := by
    rw [make, dif_pos fits]
    exact ⟨_, rfl⟩
  have hpayload := payload_of_make hmake
  refine ⟨event, hmake, ?_⟩
  rw [make, dif_pos fits] at hmake
  cases hmake
  exact ⟨rfl, rfl, rfl, rfl, hpayload⟩

/-! ## The fixed part -/

/-- The fixed part is there and gives this level and this size. -/
structure FixedPart (bytes : Bytes) (code : UInt8) (size : Nat) : Prop where
  length_le : 16 ≤ bytes.length
  code_eq : bytes[4]? = some code
  size_eq : ∃ high low, bytes[6]? = some high ∧ bytes[7]? = some low ∧
    size = high.toNat * 256 + low.toNat

/-- Bytes that agree with others up to some length, but for the reserved byte, are not
shorter than that. -/
theorem length_le_of_agree {bytes other : Bytes} {used : Nat} (hused : 6 < used)
    (hlength : used ≤ bytes.length)
    (hagree : ∀ index < used, index ≠ 5 → other[index]? = bytes[index]?) :
    used ≤ other.length := by
  have hinside : used - 1 < bytes.length := by omega
  have hlast : other[used - 1]? = some bytes[used - 1] := by
    rw [hagree _ (by omega) (by omega), List.getElem?_eq_getElem hinside]
  have hlast_lt := (List.getElem?_eq_some_iff.mp hlast).1
  omega

theorem exists_fixedPart {bytes : Bytes} (h : 16 ≤ bytes.length) :
    ∃ code size, FixedPart bytes code size :=
  ⟨_, _, h, List.getElem?_eq_getElem (by omega), _, _, List.getElem?_eq_getElem (by omega),
    List.getElem?_eq_getElem (by omega), rfl⟩

section FixedPart

variable {bytes : Bytes} {code : UInt8} {size : Nat}

theorem FixedPart.numberAt_level (h : FixedPart bytes code size) :
    numberAt bytes 4 1 = code.toNat :=
  numberAt_byte h.code_eq

theorem FixedPart.numberAt_size (h : FixedPart bytes code size) : numberAt bytes 6 2 = size := by
  obtain ⟨high, low, hhigh, hlow, hsize⟩ := h.size_eq
  rw [numberAt_two_bytes hhigh hlow, hsize]

/-- Where other bytes agree with these in the fixed part, it is there too. -/
theorem FixedPart.congr {other : Bytes} (h : FixedPart bytes code size)
    (hagree : ∀ index < 16, index ≠ 5 → other[index]? = bytes[index]?) :
    FixedPart other code size := by
  obtain ⟨high, low, hhigh, hlow, hsize⟩ := h.size_eq
  constructor
  · exact length_le_of_agree (by decide) h.length_le hagree
  · rw [hagree 4 (by decide) (by decide), h.code_eq]
  · refine ⟨high, low, ?_, ?_, hsize⟩
    · rw [hagree 6 (by decide) (by decide), hhigh]
    · rw [hagree 7 (by decide) (by decide), hlow]

/-- With the fixed part there, level, size and length are checked in this order. -/
theorem decode_of_fixedPart (h : FixedPart bytes code size) :
    decode bytes =
      match Level.ofCode? code with
      | none => .error (.invalidArgument (.unknownLevel code))
      | some level =>
        if 128 < size then .error (.payloadOutOfRange size 128)
        else if bytes.length < 16 + size then .error (.truncated (16 + size) bytes.length)
        else
          match make (.ofNat (numberAt bytes 0 4)) level ((bytes.drop 16).take size)
            (.ofNat (numberAt bytes 8 8)) with
          | .ok event => .ok (event, 16 + size)
          | .error error => .error error := by
  have hlong : ¬ bytes.length < fixedLength := not_lt.mpr h.length_le
  rw [decode, if_neg hlong]
  simp only [h.numberAt_level, h.numberAt_size, UInt8.ofNat_toNat]
  rfl

/-- A known level, a size in range and a payload that is all there make a record. -/
theorem FixedPart.isRecord (h : FixedPart bytes code size) (hlevel : code ≤ 3)
    (hsize : size ≤ 128) (hlength : 16 + size ≤ bytes.length) :
    IsRecord (bytes.take (16 + size)) where
  fixed_le := by
    rw [List.length_take]
    omega
  level_le := by
    rw [numberAt_take (by omega), h.numberAt_level]
    exact UInt8.le_iff_toNat_le.mp hlevel
  size_le := by
    rw [numberAt_take (by omega), h.numberAt_size]
    exact hsize
  length_eq := by
    rw [numberAt_take (by omega), h.numberAt_size, List.length_take]
    omega

/-- A record has a fixed part, with a known level. -/
theorem exists_fixedPart_of_isRecord {record : Bytes} (h : IsRecord record) :
    ∃ code, code ≤ 3 ∧ FixedPart record code (numberAt record 6 2) := by
  obtain ⟨code, size, hfixed⟩ := exists_fixedPart h.fixed_le
  refine ⟨code, ?_, by rwa [hfixed.numberAt_size]⟩
  rw [UInt8.le_iff_toNat_le, ← hfixed.numberAt_level]
  exact h.level_le

end FixedPart

/-! ## Reading one record -/

/-- What the reader takes from the front is a record. -/
theorem isRecord_of_decode {bytes : Bytes} {event : Event} {used : Nat}
    (h : decode bytes = .ok (event, used)) :
    used ≤ bytes.length ∧ IsRecord (bytes.take used) := by
  obtain ⟨hleast, hmost⟩ := used_of_decode h
  obtain ⟨code, size, hfixed⟩ := exists_fixedPart (hleast.trans hmost)
  rw [decode_of_fixedPart hfixed] at h
  split at h
  · cases h
  · next level hlevel =>
    split at h
    · cases h
    · next hsize =>
      split at h
      · cases h
      · next hlength =>
        split at h
        · cases h
          have hcode : code ≤ 3 := Level.code_of_ofCode? hlevel ▸ level.code_le
          exact ⟨hmost, hfixed.isRecord hcode (not_lt.mp hsize) (not_lt.mp hlength)⟩
        · cases h

/-- A record is read as the event it describes, whatever follows it. -/
theorem decode_append {record : Bytes} (h : IsRecord record) :
    ∃ event, Describes record event ∧
      ∀ rest, decode (record ++ rest) = .ok (event, record.length) := by
  obtain ⟨code, hcode, hfixed⟩ := exists_fixedPart_of_isRecord h
  obtain ⟨level, hlevel⟩ := Level.exists_ofCode? hcode
  have hfixed_le := h.fixed_le
  have hlength := h.length_eq
  have fits : (record.drop 16).length ≤ maxPayload := by
    have hle := h.size_le
    rw [List.length_drop, hlength, maxPayload]
    omega
  obtain ⟨event, hmake, hid, hkind, htimestamp, hsize, hbytes⟩ :=
    exists_make (.ofNat (numberAt record 0 4)) level (.ofNat (numberAt record 8 8)) fits
  refine ⟨event, ?_, ?_⟩
  · constructor
    · rw [hid, toNat_uint32_numberAt]
    · rw [hkind, Level.code_of_ofCode? hlevel, hfixed.numberAt_level]
    · rw [hsize, List.length_drop, hlength, Nat.add_sub_cancel_left]
    · rw [htimestamp, toNat_uint64_numberAt]
    · exact hbytes
  · intro rest
    have hfront : FixedPart (record ++ rest) code (numberAt record 6 2) :=
      hfixed.congr fun index hindex _ => List.getElem?_append_left (by omega)
    have hpayload : ((record ++ rest).drop 16).take (numberAt record 6 2) = record.drop 16 := by
      rw [List.drop_append_of_le_length hfixed_le]
      apply List.take_left'
      rw [List.length_drop, hlength, Nat.add_sub_cancel_left]
    have hthere : ¬ (record ++ rest).length < record.length := by
      rw [List.length_append]
      omega
    rw [decode_of_fixedPart hfront, hlevel, ← hlength]
    simp only [if_neg (not_lt.mpr h.size_le), if_neg hthere, hpayload,
      numberAt_append rest (by omega : 0 + 4 ≤ record.length),
      numberAt_append rest (by omega : 8 + 8 ≤ record.length), hmake]

/-! ## Reading a payload -/

theorem decodeAll_nil : decodeAll [] = .ok [] := by
  rw [decodeAll, if_pos rfl]

theorem decodeAll_of_error {bytes : Bytes} {error : Error} (hne : bytes ≠ [])
    (h : decode bytes = .error error) : decodeAll bytes = .error error := by
  rw [decodeAll, if_neg hne]
  split
  · next error' herror =>
    rw [h] at herror
    cases herror
    rfl
  · next event used hevent =>
    rw [h] at hevent
    cases hevent

theorem decodeAll_of_decode {bytes : Bytes} {event : Event} {used : Nat}
    (h : decode bytes = .ok (event, used)) :
    decodeAll bytes = (decodeAll (bytes.drop used)).map (event :: ·) := by
  have hne : bytes ≠ [] := by
    intro hnil
    have hused := used_of_decode h
    rw [hnil, List.length_nil, fixedLength] at hused
    omega
  rw [decodeAll, if_neg hne]
  split
  · next error herror =>
    rw [h] at herror
    cases herror
  · next event' used' hevent =>
    rw [h] at hevent
    cases hevent
    cases decodeAll (bytes.drop used) <;> rfl

/-- Records at the front of a payload are read first, whatever becomes of the
rest. -/
theorem decodeAll_append {records : List Bytes} (h : ∀ record ∈ records, IsRecord record) :
    ∃ events, List.Forall₂ Describes records events ∧
      ∀ rest, decodeAll (records.flatten ++ rest) = (decodeAll rest).map (events ++ ·) := by
  induction records with
  | nil =>
    refine ⟨[], .nil, fun rest => ?_⟩
    cases hrest : decodeAll rest <;> simp [hrest, Except.map]
  | cons record records ih =>
    obtain ⟨event, hevent, hdecode⟩ := decode_append (h record List.mem_cons_self)
    obtain ⟨events, hevents, hdecodeAll⟩ :=
      ih fun record hmem => h record (List.mem_cons_of_mem _ hmem)
    refine ⟨event :: events, .cons hevent hevents, fun rest => ?_⟩
    rw [List.flatten_cons, List.append_assoc, decodeAll_of_decode (hdecode _), List.drop_left,
      hdecodeAll]
    cases decodeAll rest <;> rfl

end Event

/-- The payload begins with these records, and what comes behind them is no
record, for the given reason. -/
structure StopsAt (payload : Bytes) (records : List Bytes) (rest : Bytes) (error : Error) :
    Prop where
  append_eq : records.flatten ++ rest = payload
  isRecord : ∀ record ∈ records, IsRecord record
  rest_ne_nil : rest ≠ []
  decode_eq : Event.decode rest = .error error

/-- A payload that splits is read as the events of its records. -/
theorem Splits.decodeAll_eq {payload : Bytes} {records : List Bytes}
    (h : Splits payload records) :
    ∃ events, Event.decodeAll payload = .ok events ∧ List.Forall₂ Describes records events := by
  obtain ⟨events, hevents, hdecode⟩ := Event.decodeAll_append h.isRecord
  refine ⟨events, ?_, hevents⟩
  have hpayload := hdecode []
  rw [List.append_nil, h.flatten_eq, Event.decodeAll_nil] at hpayload
  rw [hpayload, Except.map, List.append_nil]

/-- Otherwise nothing is read, and the error is that of the first stretch that is
no record. -/
theorem StopsAt.decodeAll_eq {payload rest : Bytes} {records : List Bytes} {error : Error}
    (h : StopsAt payload records rest error) : Event.decodeAll payload = .error error := by
  obtain ⟨events, -, hdecode⟩ := Event.decodeAll_append h.isRecord
  rw [← h.append_eq, hdecode, Event.decodeAll_of_error h.rest_ne_nil h.decode_eq]
  rfl

theorem StopsAt.cons {record payload rest : Bytes} {records : List Bytes} {error : Error}
    (hrecord : IsRecord record) (h : StopsAt payload records rest error) :
    StopsAt (record ++ payload) (record :: records) rest error where
  append_eq := by rw [List.flatten_cons, List.append_assoc, h.append_eq]
  isRecord := by simpa using ⟨hrecord, h.isRecord⟩
  rest_ne_nil := h.rest_ne_nil
  decode_eq := h.decode_eq

theorem splits_or_stopsAt_of_take {payload : Bytes} {used : Nat}
    (hrecord : IsRecord (payload.take used))
    (h : (∃ records, Splits (payload.drop used) records) ∨
      ∃ records rest error, StopsAt (payload.drop used) records rest error) :
    (∃ records, Splits payload records) ∨
      ∃ records rest error, StopsAt payload records rest error := by
  have hpayload : payload.take used ++ payload.drop used = payload :=
    List.take_append_drop used payload
  rcases h with ⟨records, hsplits⟩ | ⟨records, rest, error, hstops⟩
  · left
    exact ⟨_, hpayload ▸ hsplits.cons hrecord⟩
  · right
    exact ⟨_, rest, error, hpayload ▸ hstops.cons hrecord⟩

/-- Every payload splits or stops somewhere. -/
theorem splits_or_stopsAt (payload : Bytes) :
    (∃ records, Splits payload records) ∨
      ∃ records rest error, StopsAt payload records rest error := by
  induction payload using Event.decodeAll.induct with
  | case1 => exact .inl ⟨[], splits_nil⟩
  | case2 payload hne error hdecode =>
    exact .inr ⟨[], payload, error, rfl, by simp, hne, hdecode⟩
  | case3 payload hne event used hdecode error hrest ih =>
    exact splits_or_stopsAt_of_take (Event.isRecord_of_decode hdecode).2 ih
  | case4 payload hne event used hdecode events hrest ih =>
    exact splits_or_stopsAt_of_take (Event.isRecord_of_decode hdecode).2 ih

/-! ## Writing back what was read -/

/-- An event is written as the record that it was read from, but for the reserved
byte. -/
theorem Describes.encode_eq {record : Bytes} {event : Event} (hrecord : IsRecord record)
    (h : Describes record event) : event.encode = record.set 5 0 := by
  have hfixed := hrecord.fixed_le
  have hlevel : [event.level.code] = (record.drop 4).take 1 :=
    calc [event.level.code]
        = bigEndian 1 event.level.code.toNat := by simp [bigEndian]
      _ = (record.drop 4).take 1 := by rw [h.level_eq, bigEndian_numberAt (by omega)]
  have hfront : (record.drop 0).take 4 ++ (record.drop 4).take 1 = record.take 5 := by
    rw [field_append_field record 0 4 1, List.drop_zero]
  have hback : (record.drop 6).take 2 ++ (record.drop 8).take 8 ++ record.drop 16 =
      record.drop 6 := by
    have htail : record.drop 16 = (record.drop 6).drop (2 + 8) := by rw [List.drop_drop]
    rw [field_append_field record 6 2 8, htail, List.take_append_drop]
  calc event.encode
      = bigEndian 4 (numberAt record 0 4) ++ [event.level.code] ++ [0] ++
          (bigEndian 2 (numberAt record 6 2) ++ bigEndian 8 (numberAt record 8 8) ++
            record.drop 16) := by
        rw [Event.encode, h.id_eq, h.size_eq, h.timestamp_eq, h.payload_eq]
        simp only [List.append_assoc, List.cons_append, List.nil_append]
    _ = record.take 5 ++ [0] ++ record.drop 6 := by
        rw [bigEndian_numberAt (by omega), bigEndian_numberAt (by omega),
          bigEndian_numberAt (by omega), hlevel, hfront, hback]
    _ = record.set 5 0 := by
        rw [List.set_eq_take_append_cons_drop, if_pos (by omega), List.append_assoc]
        rfl

theorem Describes.encodedLength_eq {record : Bytes} {event : Event} (hrecord : IsRecord record)
    (h : Describes record event) : event.encodedLength = record.length := by
  rw [Event.encodedLength, Event.fixedLength, h.size_eq, hrecord.length_eq]

theorem map_encode_eq {records : List Bytes} {events : List Event}
    (hrecords : ∀ record ∈ records, IsRecord record)
    (h : List.Forall₂ Describes records events) :
    events.map Event.encode = records.map (·.set 5 0) := by
  induction h with
  | nil => rfl
  | cons hevent hevents ih =>
    rw [List.map_cons, List.map_cons, hevent.encode_eq (hrecords _ List.mem_cons_self),
      ih fun record hmem => hrecords record (List.mem_cons_of_mem _ hmem)]

end Telemetry
