import Telemetry.Proofs.Wire.Writing

/-!
# What is said of a header

Five things can be wrong with the bytes that a header is read from, and the first of them
decides: too few bytes, foreign letters, another version, another header length, a payload
that is not all there.  Bytes with nothing wrong are the ones that a header is written as.
-/

namespace Telemetry.Header

variable {header : Header} {error : Error}

/-! ## The protocol's constants -/

/-- The first constant of the protocol that a header does not hold. -/
inductive ConstantFault (header : Header) : Error → Prop
  | magic (h : header.magic ≠ protocolMagic) :
      ConstantFault header (.magicMismatch protocolMagic header.magic)
  | version (hmagic : header.magic = protocolMagic) (h : header.version ≠ protocolVersion) :
      ConstantFault header (.versionMismatch protocolVersion header.version)
  | headerLength (hmagic : header.magic = protocolMagic)
      (hversion : header.version = protocolVersion) (h : header.headerLength ≠ lengthCode) :
      ConstantFault header (.headerLengthMismatch lengthCode header.headerLength)

theorem validate_eq_ok_iff :
    header.validate = .ok () ↔
      header.magic = protocolMagic ∧ header.version = protocolVersion ∧
        header.headerLength = lengthCode := by
  rw [validate]
  split
  · simp [*]
  · split
    · simp [*]
    · split <;> simp_all

theorem validate_eq_error_iff : header.validate = .error error ↔ ConstantFault header error := by
  constructor
  · intro h
    rw [validate] at h
    split at h
    · next hmagic =>
      cases h
      exact .magic hmagic
    · next hmagic =>
      split at h
      · next hversion =>
        cases h
        exact .version (not_not.mp hmagic) hversion
      · next hversion =>
        split at h
        · next hlength =>
          cases h
          exact .headerLength (not_not.mp hmagic) (not_not.mp hversion) hlength
        · cases h
  · intro h
    cases h <;> simp [validate, *]

theorem encode_eq_ok_iff {bytes : Bytes} :
    header.encode = .ok bytes ↔ header.validate = .ok () ∧ header.toBytes = bytes := by
  rw [encode]
  cases header.validate <;> simp

theorem encode_eq_error_iff :
    header.encode = .error error ↔ header.validate = .error error := by
  rw [encode]
  cases header.validate <;> simp

/-- A valid header is read as itself, or refused for a payload that is not all there. -/
theorem decode_toBytes_append (hvalid : header.validate = .ok ()) (rest : Bytes) :
    decode (header.toBytes ++ rest) =
      if header.payloadLength.toNat ≤ rest.length then .ok header
      else .error (.payloadOutOfRange header.payloadLength.toNat rest.length) := by
  split
  · next h => exact decode_toBytes hvalid h
  · next h => exact decode_of_cut hvalid (not_le.mp h)

/-- A header is written if the check of its constants passes, and otherwise refused with
the error of that check, which is about the first constant that is wrong.  The 32 bytes
that are written are read as the same header, whatever it holds in its other fields, as
soon as the payload that it announces follows them. -/
theorem written_header_read_back (header : Header) :
    ((∃ bytes, header.encode = .ok bytes) ↔ header.validate = .ok ()) ∧
      (∀ error, header.encode = .error error ↔ header.validate = .error error) ∧
      (∀ error, header.validate = .error error ↔ ConstantFault header error) ∧
      ∀ bytes, header.encode = .ok bytes →
        bytes.length = 32 ∧
          ∀ rest, decode (bytes ++ rest) =
            if header.payloadLength.toNat ≤ rest.length then .ok header
            else .error (.payloadOutOfRange header.payloadLength.toNat rest.length) := by
  refine ⟨?_, fun _ => encode_eq_error_iff, fun _ => validate_eq_error_iff, ?_⟩
  · simp only [encode_eq_ok_iff, exists_and_left, exists_eq', and_true]
  · intro bytes hencode
    obtain ⟨hvalid, rfl⟩ := encode_eq_ok_iff.mp hencode
    exact ⟨length_toBytes header, decode_toBytes_append hvalid⟩

/-- An unknown message type, a checksum and a reserved word, with two bytes announced. -/
theorem opaque_fields_read_back :
    let header : Header :=
      { make .eventBatch 0xFFFFFFFF 0x0102030405060708 2 with
        messageType := 0xABCD, checksum := 0xDEADBEEF, reserved := 0x80000001 }
    ∃ bytes, header.encode = .ok bytes ∧ bytes.length = 32 ∧
      decode (bytes ++ [7, 8, 9]) = .ok header ∧
      decode (bytes ++ [7]) = .error (.payloadOutOfRange 2 1) := by
  intro header
  obtain ⟨bytes, hencode⟩ : ∃ bytes, header.encode = .ok bytes := ⟨_, rfl⟩
  obtain ⟨-, -, -, hread⟩ := written_header_read_back header
  obtain ⟨hlength, hrest⟩ := hread bytes hencode
  exact ⟨bytes, hencode, hlength, hrest [7, 8, 9], hrest [7]⟩

/-! ## The bytes of a header -/

/-- The letters that every header begins with. -/
def magicBytes : Bytes := [0x54, 0x45, 0x4C, 0x31]

/-- What is to be said of the header at the front of `bytes`: the first fault that there
is, or the header that the bytes are written from. -/
inductive Verdict (bytes : Bytes) : Except Error Header → Prop
  | truncated (h : bytes.length < 32) : Verdict bytes (.error (.truncated 32 bytes.length))
  | magic (found : UInt32) (hlength : 32 ≤ bytes.length)
      (hfound : found.toNat = numberAt bytes 0 4) (h : bytes.take 4 ≠ magicBytes) :
      Verdict bytes (.error (.magicMismatch 0x54454C31 found))
  | version (found : UInt8) (hlength : 32 ≤ bytes.length) (hmagic : bytes.take 4 = magicBytes)
      (hfound : bytes[4]? = some found) (h : found ≠ 1) :
      Verdict bytes (.error (.versionMismatch 1 found))
  | headerLength (found : UInt8) (hlength : 32 ≤ bytes.length)
      (hmagic : bytes.take 4 = magicBytes) (hversion : bytes[4]? = some 1)
      (hfound : bytes[5]? = some found) (h : found ≠ 32) :
      Verdict bytes (.error (.headerLengthMismatch 32 found))
  | payload (hlength : 32 ≤ bytes.length) (hmagic : bytes.take 4 = magicBytes)
      (hversion : bytes[4]? = some 1) (hheader : bytes[5]? = some 32)
      (h : bytes.length - 32 < numberAt bytes 20 4) :
      Verdict bytes (.error (.payloadOutOfRange (numberAt bytes 20 4) (bytes.length - 32)))
  | accepted (header : Header) (hlength : 32 ≤ bytes.length)
      (hpayload : numberAt bytes 20 4 ≤ bytes.length - 32)
      (hencode : header.encode = .ok (bytes.take 32)) : Verdict bytes (.ok header)

variable {bytes : Bytes}

theorem magic_ofBytes_iff (hlength : 32 ≤ bytes.length) :
    (ofBytes bytes).magic = protocolMagic ↔ bytes.take 4 = magicBytes := by
  constructor
  · intro h
    have hnumber : numberAt bytes 0 4 = protocolMagic.toNat := by
      rw [← h, ofBytes, toNat_uint32_numberAt]
    calc bytes.take 4
        = bigEndian 4 (numberAt bytes 0 4) := by
          rw [bigEndian_numberAt (by omega), List.drop_zero]
      _ = magicBytes := by
          rw [hnumber]
          rfl
  · intro h
    rw [ofBytes, numberAt, List.drop_zero, h]
    rfl

theorem version_ofBytes {byte : UInt8} (h : bytes[4]? = some byte) :
    (ofBytes bytes).version = byte := by
  rw [ofBytes, numberAt_byte h, UInt8.ofNat_toNat]

theorem headerLength_ofBytes {byte : UInt8} (h : bytes[5]? = some byte) :
    (ofBytes bytes).headerLength = byte := by
  rw [ofBytes, numberAt_byte h, UInt8.ofNat_toNat]

/-- Bytes that begin with the protocol's constants hold a valid header. -/
theorem validate_ofBytes (hlength : 32 ≤ bytes.length) (hmagic : bytes.take 4 = magicBytes)
    (hversion : bytes[4]? = some 1) (hheader : bytes[5]? = some 32) :
    (ofBytes bytes).validate = .ok () :=
  validate_eq_ok_iff.mpr ⟨(magic_ofBytes_iff hlength).mpr hmagic, version_ofBytes hversion,
    headerLength_ofBytes hheader⟩

/-- The fields of a header lie in its 32 bytes. -/
theorem ofBytes_take (bytes : Bytes) : ofBytes (bytes.take 32) = ofBytes bytes := by
  simp only [ofBytes, numberAt_take, Nat.reduceAdd, Nat.reduceLeDiff]

/-- A header is found in the bytes that it is written as. -/
theorem ofBytes_of_encode (h : header.encode = .ok (bytes.take 32)) :
    ofBytes bytes = header := by
  rw [← ofBytes_take, ← (encode_eq_ok_iff.mp h).2]
  exact List.append_nil header.toBytes ▸ ofBytes_toBytes header []

/-- With enough bytes, the constants are checked before the payload. -/
theorem decode_of_length (hlength : 32 ≤ bytes.length) :
    decode bytes =
      match (ofBytes bytes).validate with
      | .error error => .error error
      | .ok () =>
        if bytes.length - 32 < numberAt bytes 20 4 then
          .error (.payloadOutOfRange (numberAt bytes 20 4) (bytes.length - 32))
        else
          .ok (ofBytes bytes) := by
  have hpayload : (ofBytes bytes).payloadLength.toNat = numberAt bytes 20 4 :=
    toNat_uint32_numberAt bytes 20
  have hlong : ¬ bytes.length < length := not_lt.mpr hlength
  simp only [decode, if_neg hlong, hpayload]
  rfl

theorem decode_of_constantFault (hlength : 32 ≤ bytes.length)
    (h : ConstantFault (ofBytes bytes) error) : decode bytes = .error error := by
  rw [decode_of_length hlength, validate_eq_error_iff.mpr h]

theorem Verdict.decode_eq {result : Except Error Header} (h : Verdict bytes result) :
    decode bytes = result := by
  cases h with
  | truncated h => exact if_pos h
  | magic found hlength hfound h =>
    have hfield : (ofBytes bytes).magic = found := by
      rw [← UInt32.toNat_inj, hfound]
      exact toNat_uint32_numberAt bytes 0
    apply decode_of_constantFault hlength
    rw [← hfield]
    exact .magic (mt (magic_ofBytes_iff hlength).mp h)
  | version found hlength hmagic hfound h =>
    apply decode_of_constantFault hlength
    rw [← version_ofBytes hfound] at h ⊢
    exact .version ((magic_ofBytes_iff hlength).mpr hmagic) h
  | headerLength found hlength hmagic hversion hfound h =>
    apply decode_of_constantFault hlength
    rw [← headerLength_ofBytes hfound] at h ⊢
    exact .headerLength ((magic_ofBytes_iff hlength).mpr hmagic) (version_ofBytes hversion) h
  | payload hlength hmagic hversion hheader h =>
    rw [decode_of_length hlength, validate_ofBytes hlength hmagic hversion hheader]
    exact if_pos h
  | accepted header hlength hpayload hencode =>
    rw [decode_of_length hlength, ofBytes_of_encode hencode, (encode_eq_ok_iff.mp hencode).1]
    exact if_neg (not_lt.mpr hpayload)

/-- Something is to be said of all bytes. -/
theorem exists_verdict (bytes : Bytes) : ∃ result, Verdict bytes result := by
  by_cases hlength : bytes.length < 32
  · exact ⟨_, .truncated hlength⟩
  have hlength : 32 ≤ bytes.length := not_lt.mp hlength
  by_cases hmagic : bytes.take 4 = magicBytes
  swap
  · exact ⟨_, .magic (.ofNat (numberAt bytes 0 4)) hlength (toNat_uint32_numberAt bytes 0) hmagic⟩
  obtain ⟨version, hversion⟩ : ∃ version, bytes[4]? = some version :=
    ⟨_, List.getElem?_eq_getElem (by omega)⟩
  by_cases hone : version = 1
  swap
  · exact ⟨_, .version version hlength hmagic hversion hone⟩
  obtain ⟨announced, hheader⟩ : ∃ announced, bytes[5]? = some announced :=
    ⟨_, List.getElem?_eq_getElem (by omega)⟩
  subst hone
  by_cases hsize : announced = 32
  swap
  · exact ⟨_, .headerLength announced hlength hmagic hversion hheader hsize⟩
  subst hsize
  by_cases hpayload : bytes.length - 32 < numberAt bytes 20 4
  · exact ⟨_, .payload hlength hmagic hversion hheader hpayload⟩
  · have hvalid := validate_ofBytes hlength hmagic hversion hheader
    exact ⟨_, .accepted (ofBytes bytes) hlength (not_lt.mp hpayload)
      (encode_eq_ok_iff.mpr ⟨hvalid, toBytes_ofBytes hlength⟩)⟩

theorem decode_eq_iff_verdict {result : Except Error Header} :
    decode bytes = result ↔ Verdict bytes result := by
  constructor
  · rintro rfl
    obtain ⟨result, hresult⟩ := exists_verdict bytes
    rwa [hresult.decode_eq]
  · exact Verdict.decode_eq

/-- Nothing behind the header is looked at, only how much there is. -/
theorem decode_congr {other : Bytes} (hlength : other.length = bytes.length)
    (hfront : other.take 32 = bytes.take 32) : decode other = decode bytes := by
  have hfields : ofBytes other = ofBytes bytes := by
    rw [← ofBytes_take other, hfront, ofBytes_take]
  simp only [decode, hlength, hfields]

/-- What is read from bytes is the one thing to be said of the header at their front: the
first fault, or the header that these 32 bytes are written from.  Only the 32 bytes and the
number of all bytes have a part in it. -/
theorem decode_gives_verdict (bytes : Bytes) :
    (∀ result, decode bytes = result ↔ Verdict bytes result) ∧
      (∀ header, decode bytes = .ok header → header.encode = .ok (bytes.take 32)) ∧
      ∀ other : Bytes, other.length = bytes.length → other.take 32 = bytes.take 32 →
        decode other = decode bytes :=
  ⟨fun _ => decode_eq_iff_verdict, fun _ => encode_of_decode, fun _ => decode_congr⟩

/-- Foreign letters in front of another version and another length; and a header of an
unknown type with a payload of one byte, whichever byte that is. -/
theorem verdict_on_two_faults :
    let foreign : Bytes := [0x54, 0x45, 0x4C, 0x32, 9, 7] ++ List.replicate 26 0
    let front : Bytes :=
      [0x54, 0x45, 0x4C, 0x31, 1, 32, 0xAB, 0xCD] ++ List.replicate 15 0 ++ [1] ++
        List.replicate 8 0xFF
    decode foreign = .error (.magicMismatch 0x54454C31 0x54454C32) ∧
      ∃ header, decode (front ++ [5]) = .ok header ∧ header.messageType = 0xABCD ∧
        header.encode = .ok front ∧ decode (front ++ [6]) = .ok header := by
  intro foreign front
  obtain ⟨hforeign, -⟩ := decode_gives_verdict foreign
  obtain ⟨-, hwritten, hother⟩ := decode_gives_verdict (front ++ [5])
  have hheader : decode (front ++ [5]) = .ok (ofBytes front) := rfl
  refine ⟨?_, ofBytes front, hheader, rfl, hwritten _ hheader, ?_⟩
  · exact (hforeign _).mpr (.magic 0x54454C32 (by decide) (by decide) (by decide))
  · rw [hother (front ++ [6]) rfl rfl, hheader]

end Telemetry.Header
