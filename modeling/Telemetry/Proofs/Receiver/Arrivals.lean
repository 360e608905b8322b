import Telemetry.Proofs.Text.Numerals
import Telemetry.Proofs.Wire.Extent
import Telemetry.Receiver

/-!
# What a receiver reports

The receive buffer is used again for every datagram, but only the bytes just received are
read, so a report depends on its own datagram alone.  A frame that fits into the buffer is
reported whole.  Of a longer one the header arrives and announces more bytes than have
been received, so none of its events is reported.  The line about an event tells its
sender, its number and what it is, up to payloads that are shown alike.
-/

namespace Telemetry

theorem Level.label_injective : Function.Injective label := by
  intro left right
  cases left <;> cases right <;> decide

namespace Receiver

/-! ## The buffer -/

/-- The bytes just received are at the front of the buffer. -/
theorem Buffer.front_receive (buffer : Buffer) (datagram : Bytes) :
    (buffer.receive datagram).2.front (buffer.receive datagram).1 =
      datagram.take bufferLength := by
  have hfit : (datagram.take bufferLength).length ≤ bufferLength := List.length_take_le _ _
  rw [receive, front]
  apply List.ext_getElem
  · rw [List.length_take, Vector.length_toList]
    exact Nat.min_eq_left hfit
  · intro index _ hindex
    rw [List.getElem_take, Vector.getElem_toList, Vector.getElem_ofFn]
    simp only [Fin.getElem?_fin, List.getElem?_eq_getElem hindex, Option.getD_some]

/-- What is logged depends on the datagrams and not on what was in the buffer. -/
theorem reports_eq (buffer : Buffer) (arrivals : List (String × Bytes)) :
    reports buffer arrivals =
      arrivals.flatMap fun arrival => report arrival.1 (arrival.2.take bufferLength) := by
  induction arrivals generalizing buffer with
  | nil => rfl
  | cons arrival arrivals ih =>
    obtain ⟨sender, datagram⟩ := arrival
    rw [List.flatMap_cons, ← ih (buffer.receive datagram).2, ← buffer.front_receive]
    rfl

/-! ## Events and warnings -/

def LogLine.isEvent (line : LogLine) : Bool := line.message = "Event"

def LogLine.isWarning (line : LogLine) : Bool := line.level = .warning

@[simp]
theorem isEvent_eventLine (sender : String) (sequence : UInt32) (event : Event) :
    (eventLine sender sequence event).isEvent = true := rfl

@[simp]
theorem isEvent_undecodable (sender : String) (size : Nat) (error : Error) :
    (undecodable sender size error).isEvent = false := rfl

@[simp]
theorem isEvent_listening (port : UInt16) : (listening port).isEvent = false := rfl

@[simp]
theorem isWarning_eventLine (sender : String) (sequence : UInt32) (event : Event) :
    (eventLine sender sequence event).isWarning = false := rfl

@[simp]
theorem isWarning_undecodable (sender : String) (size : Nat) (error : Error) :
    (undecodable sender size error).isWarning = true := rfl

@[simp]
theorem isWarning_listening (port : UInt16) : (listening port).isWarning = false := rfl

/-- The event lines about a datagram are those of the events it brings. -/
theorem filter_isEvent_report (sender : String) (received : Bytes) :
    (report sender received).filter LogLine.isEvent =
      match Frame.decode received with
      | .ok frame => frame.events.map (eventLine sender frame.header.sequence)
      | .error _ => [] := by
  rw [report]
  cases Frame.decode received with
  | error error => simp
  | ok frame => simp [List.filter_map, Function.comp_def]

/-- A datagram that does not decode costs one warning, and no other does. -/
theorem filter_isWarning_report (sender : String) (received : Bytes) :
    (report sender received).filter LogLine.isWarning =
      (match Frame.decode received with
        | .ok _ => none
        | .error error => some (undecodable sender received.length error)).toList := by
  rw [report]
  cases Frame.decode received with
  | error error => simp
  | ok frame => simp [List.filter_map, Function.comp_def]

/-! ## Written frames -/

/-- A written frame that fits into the buffer is reported whole, and of a longer one only
that it does not fit. -/
theorem report_of_encode {sequence : UInt32} {timestamp : UInt64} {events : List Event}
    {bytes : Bytes} (h : Frame.encode sequence timestamp events = .ok bytes) (sender : String) :
    report sender (bytes.take bufferLength) =
      if bytes.length ≤ bufferLength then events.map (eventLine sender sequence)
      else [undecodable sender bufferLength
        (.payloadOutOfRange (bytes.length - 32) (bufferLength - 32))] := by
  split
  · next hfit =>
    rw [List.take_of_length_le hfit, report, Frame.decode_of_encode h]
    rfl
  · next hlong =>
    have hcut : bufferLength < bytes.length := not_le.mp hlong
    rw [report, Frame.decode_take_of_encode h (by decide) hcut]
    simp only [List.length_take, Nat.min_eq_left hcut.le]

/-! ## What a line tells -/

/-- Events that are reported alike have come from one sender, under one number, and differ
at most in payloads that are shown alike. -/
theorem eventLine_inj {sender sender' : String} {sequence sequence' : UInt32}
    {event event' : Event} :
    eventLine sender sequence event = eventLine sender' sequence' event' ↔
      sender = sender' ∧ sequence = sequence' ∧ event.id = event'.id ∧
        event.level = event'.level ∧ event.timestamp = event'.timestamp ∧
        Utf8.decodeLossy event.payload = Utf8.decodeLossy event'.payload := by
  simp [eventLine, Numeral.toString_word32_inj, Numeral.toString_word64_inj,
    Level.label_injective.eq_iff]

/-! ## Whole logs -/

/-- Whatever the buffer held before, the log has for each datagram, in the order of their
arrival, what its first 2048 bytes say: a line for each event of its frame, with the frame's
own number, or one warning if they are no frame.  So a written frame of at most 2048 bytes
is reported whole at its place, and a longer one not at all.  Events of different numbers,
ids, levels or times are never reported alike. -/
theorem log_reports_each_datagram (port : UInt16) (arrivals : List (String × Bytes)) :
    let reported (sender : String) (sequence : UInt32) (event : Event) : LogLine := {
      level := .info
      message := "Event"
      fields := [
        ("from", sender),
        ("sequence", toString sequence),
        ("event_id", toString event.id),
        ("level", event.level.label),
        ("timestamp_ns", toString event.timestamp),
        ("payload", Utf8.decodeLossy event.payload)] }
    let skipped (sender : String) (size : Nat) (error : Error) : LogLine := {
      level := .warning
      message := "Skipping undecodable datagram"
      fields := [("from", sender), ("bytes", toString size), ("error", error.message)] }
    log port arrivals = listening port :: arrivals.flatMap (fun (sender, datagram) =>
        match Frame.decode (datagram.take 2048) with
        | .ok frame => frame.events.map (reported sender frame.header.sequence)
        | .error error => [skipped sender (datagram.take 2048).length error]) ∧
      (∀ buffer, reports buffer arrivals = reports .zero arrivals) ∧
      (log port arrivals).filter LogLine.isEvent = arrivals.flatMap (fun (sender, datagram) =>
        match Frame.decode (datagram.take 2048) with
        | .ok frame => frame.events.map (reported sender frame.header.sequence)
        | .error _ => []) ∧
      (log port arrivals).filter LogLine.isWarning =
        arrivals.filterMap (fun (sender, datagram) =>
          match Frame.decode (datagram.take 2048) with
          | .ok _ => none
          | .error error => some (skipped sender (datagram.take 2048).length error)) ∧
      (∀ before sender bytes behind, arrivals = before ++ (sender, bytes) :: behind →
        ∀ sequence timestamp events, Frame.encode sequence timestamp events = .ok bytes →
          log port arrivals =
            log port before ++
              (if bytes.length ≤ 2048 then events.map (reported sender sequence)
                else [skipped sender 2048 (.payloadOutOfRange (bytes.length - 32) 2016)]) ++
              reports .zero behind) ∧
      ∀ sender sender' sequence sequence' event event',
        reported sender sequence event = reported sender' sequence' event' ↔
          sender = sender' ∧ sequence = sequence' ∧ event.id = event'.id ∧
            event.level = event'.level ∧ event.timestamp = event'.timestamp ∧
            Utf8.decodeLossy event.payload = Utf8.decodeLossy event'.payload := by
  intro reported skipped
  have hlog (arrivals : List (String × Bytes)) : log port arrivals =
      listening port ::
        arrivals.flatMap fun arrival => report arrival.1 (arrival.2.take bufferLength) := by
    rw [log, reports_eq]
  refine ⟨hlog arrivals, fun buffer => by rw [reports_eq, reports_eq], ?_, ?_, ?_,
    fun _ _ _ _ _ _ => eventLine_inj⟩
  · rw [hlog, List.filter_cons_of_neg (by simp), List.filter_flatMap]
    simp only [filter_isEvent_report]
    rfl
  · rw [hlog, List.filter_cons_of_neg (by simp), List.filter_flatMap,
      List.filterMap_eq_flatMap_toList]
    simp only [filter_isWarning_report]
    rfl
  · rintro before sender bytes behind rfl sequence timestamp events hencode
    rw [hlog, hlog, List.flatMap_append, List.flatMap_cons, report_of_encode hencode,
      reports_eq, List.cons_append, List.cons_append, List.append_assoc]
    rfl

/-- A frame of 2080 bytes, and behind it a short one. -/
theorem short_frame_behind_long_one :
    ∃ long short, Frame.encode 1 0 (List.replicate 128 .blank) = .ok long ∧
      Frame.encode 2 0 [.blank] = .ok short ∧
      log 9000 [("first", long), ("second", short)] = [
        ⟨.info, "Listening for telemetry frames", [("port", "9000")]⟩,
        ⟨.warning, "Skipping undecodable datagram", [("from", "first"), ("bytes", "2048"),
          ("error", "Declared payload length 2048 exceeds the 2016 bytes available")]⟩,
        ⟨.info, "Event", [("from", "second"), ("sequence", "2"), ("event_id", "0"),
          ("level", "DEBUG"), ("timestamp_ns", "0"), ("payload", "")]⟩] := by
  have hlong : Frame.payloadSize (List.replicate 128 .blank) = 2048 := by
    rw [Frame.payloadSize_eq_sum, List.map_replicate, List.sum_replicate]
    rfl
  obtain ⟨long, hfirst⟩ :
      ∃ long, Frame.encode 1 0 (List.replicate 128 .blank) = .ok long :=
    ⟨_, Frame.encode_of_le 1 0 (by rw [hlong]; decide)⟩
  obtain ⟨short, hsecond⟩ : ∃ short, Frame.encode 2 0 [.blank] = .ok short := ⟨_, rfl⟩
  refine ⟨long, short, hfirst, hsecond, ?_⟩
  have hlength : long.length = 2080 := by
    rw [Frame.eq_of_encode hfirst, List.length_append, Header.length_toBytes,
      Frame.length_flatMap_encode, hlong]
  obtain ⟨-, -, -, -, hbehind, -⟩ :=
    log_reports_each_datagram 9000 [("first", long), ("second", short)]
  obtain ⟨-, -, -, -, hfront, -⟩ := log_reports_each_datagram 9000 [("first", long)]
  have hshort : short.length = 48 := by
    rw [Frame.eq_of_encode hsecond, List.length_append, Header.length_toBytes,
      Frame.length_flatMap_encode]
    rfl
  rw [hbehind [("first", long)] "second" short [] rfl 2 0 [.blank] hsecond,
    hfront [] "first" long [] rfl 1 0 _ hfirst, hlength, hshort]
  decide +kernel

end Receiver

end Telemetry
