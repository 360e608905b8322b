import Telemetry.Proofs.Sink.Connection
import Telemetry.Receiver

/-!
# Sizes of datagrams

A frame with one event takes 48 bytes and the payload.  Whether it is sent is
settled by the limit that the sink was opened with and by nothing else, and the
limits are such that every frame that is sent arrives whole in a receiver's
buffer.
-/

namespace Telemetry

namespace SinkConfig

theorem datagramLimit_le_max (config : SinkConfig) : config.datagramLimit.toNat ≤ 1200 := by
  rw [toNat_datagramLimit]
  split
  · decide
  · exact Nat.min_le_right _ _

theorem datagramLimit_le_setting {config : SinkConfig} (h : config.maxDatagramBytes ≠ 0) :
    config.datagramLimit.toNat ≤ config.maxDatagramBytes.toNat := by
  rw [toNat_datagramLimit, if_neg h]
  exact Nat.min_le_left _ _

theorem datagramLimit_mono {config larger : SinkConfig} (h : config.maxDatagramBytes ≠ 0)
    (hle : config.maxDatagramBytes ≤ larger.maxDatagramBytes) :
    config.datagramLimit.toNat ≤ larger.datagramLimit.toNat := by
  have hpos : larger.maxDatagramBytes ≠ 0 := by
    intro hzero
    rw [hzero] at hle
    exact h (UInt32.le_zero_iff.mp hle)
  rw [toNat_datagramLimit, toNat_datagramLimit, if_neg h, if_neg hpos]
  exact min_le_min_right 1200 (UInt32.le_iff_toNat_le.mp hle)

/-- From 176 on, and at 0, the limit leaves room for the largest event. -/
theorem le_datagramLimit {config : SinkConfig}
    (h : config.maxDatagramBytes = 0 ∨ 176 ≤ config.maxDatagramBytes) :
    176 ≤ config.datagramLimit.toNat := by
  rw [toNat_datagramLimit]
  split
  · decide
  · next hne =>
    have hle : 176 ≤ config.maxDatagramBytes := h.resolve_left hne
    exact Nat.le_min.mpr ⟨UInt32.le_iff_toNat_le.mp hle, by decide⟩

end SinkConfig

theorem Event.frame_le (event : Event) : 48 + event.size ≤ 176 :=
  Nat.add_le_add_left event.size_le 48

/-- Whether the answer is that the frame is over the limit. -/
def Answer.isOverLimit : Answer → Bool
  | .rejected (.sendFailure (.frameOverLimit _ _) _) => true
  | _ => false

namespace DatagramSink

section Sending

variable {ν : Type} [Network ν] {sink after : DatagramSink ν} {event : Event} {answer : Answer}

/-- The sink holds a socket, and these are the settings that it was opened with. -/
def OpenWith (config : SinkConfig) (sink : DatagramSink ν) : Prop :=
  sink.socket ≠ none ∧
    ∃ history address, Reached history sink ∧ lastOpening history = some { address, config }

/-- The events that the sink does not refuse for their size. -/
def fitting (sink : DatagramSink ν) : Set Event :=
  { event | (sink.send event).1.isOverLimit = false }

theorem OpenWith.limit_eq {config : SinkConfig} (h : OpenWith config sink) :
    sink.limit = config.datagramLimit.toNat := by
  obtain ⟨-, history, address, hreached, hlast⟩ := h
  rw [hreached.connection.limit_eq, hlast]
  rfl

/-- A successful `init` opens the sink. -/
theorem openWith_of_init {history : List (Turn ν)} {config : SinkConfig}
    (h : Reached history sink) (hinit : (sink.init config).1 = .ok ()) :
    OpenWith config (sink.serve (.init config)).2 := by
  obtain ⟨address, hopening, hsocket, -⟩ := opening?_of_ok hinit
  refine ⟨?_, _, address, h.turn (.init config), lastOpening_append_of_some hopening⟩
  rw [serve, hsocket]
  exact Option.some_ne_none address

/-- Over a socket, the frame is refused for its size exactly if it is over the limit. -/
theorem Sending.isOverLimit_iff (h : Sending sink event answer after)
    (hsocket : sink.socket ≠ none) :
    answer.isOverLimit = true ↔ sink.limit < 48 + event.size := by
  cases h with
  | closed hnone => exact absurd hnone hsocket
  | oversized address time network hsocket hnow hlimit => exact iff_of_true rfl hlimit
  | refused address time clocked network frame reason hsocket hnow hframe hlimit =>
    exact iff_of_false Bool.false_ne_true (not_lt.mpr hlimit)
  | short address time clocked network frame written hsocket hnow hframe hlimit =>
    exact iff_of_false Bool.false_ne_true (not_lt.mpr hlimit)
  | taken address time clocked network frame hsocket hnow hframe hlimit =>
    exact iff_of_false Bool.false_ne_true (not_lt.mpr hlimit)

theorem Sending.eq_of_isOverLimit (h : Sending sink event answer after)
    (hanswer : answer.isOverLimit = true) :
    answer = .rejected (.sendFailure (.frameOverLimit (48 + event.size) sink.limit) none) := by
  cases h with
  | oversized => rfl
  | _ => cases hanswer

theorem OpenWith.mem_fitting_iff {config : SinkConfig} (h : OpenWith config sink) :
    event ∈ sink.fitting ↔ 48 + event.size ≤ config.datagramLimit.toNat := by
  have hover := (sending_send sink event).isOverLimit_iff h.1
  rw [h.limit_eq] at hover
  rw [fitting, Set.mem_ofPred_eq, ← Bool.not_eq_true, hover, not_lt]

end Sending

/-! ## What leaves -/

section Leaving

variable {ν : Type} [Network ν] {sink after : DatagramSink (Tap ν)} {event : Event}
  {answer : Answer}

/-- Reading the clock sends nothing. -/
theorem taken_now {tap clocked : Tap ν} {time : UInt64}
    (h : Network.now tap = (time, clocked)) : clocked.taken = tap.taken := by
  change Tap.now tap = (time, clocked) at h
  cases h
  rfl

theorem taken_transmit {tap later : Tap ν} {address : Address} {datagram : Bytes}
    {result : Except String Nat} (h : Network.transmit tap address datagram = (result, later)) :
    ∃ left, later.taken = tap.taken ++ left ∧ ∀ other ∈ left, other = datagram := by
  change Tap.transmit tap address datagram = (result, later) at h
  rw [Tap.transmit] at h
  split at h
  · cases h
    exact ⟨[datagram], rfl, fun other => List.mem_singleton.mp⟩
  · cases h
    exact ⟨[], (List.append_nil _).symm, fun other hmem => absurd hmem List.not_mem_nil⟩

/-- Whatever the system makes of the frame, nothing else is sent. -/
theorem exists_left_of_transmit {time : UInt64} {clocked later : Tap ν} {address : Address}
    {frame : Bytes} {result : Except String Nat}
    (hnow : Network.now sink.network = (time, clocked))
    (hframe : Frame.encode sink.sequence time [event] = .ok frame)
    (hlimit : 48 + event.size ≤ sink.limit)
    (htransmit : Network.transmit clocked address frame = (result, later)) :
    ∃ left, later.taken = sink.network.taken ++ left ∧
      ∀ datagram ∈ left, datagram.length = 48 + event.size ∧ 48 + event.size ≤ sink.limit := by
  obtain ⟨frame', hframe', hlength, -⟩ := Frame.encode_singleton sink.sequence time event
  rw [hframe] at hframe'
  cases hframe'
  obtain ⟨left, hleft, hall⟩ := taken_transmit htransmit
  rw [taken_now hnow] at hleft
  refine ⟨left, hleft, fun datagram hmem => ⟨?_, hlimit⟩⟩
  rw [hall datagram hmem, hlength]

/-- At most one datagram is sent: the frame, which is within the limit. -/
theorem Sending.exists_left (h : Sending sink event answer after) :
    ∃ left, after.network.taken = sink.network.taken ++ left ∧
      ∀ datagram ∈ left, datagram.length = 48 + event.size ∧ 48 + event.size ≤ sink.limit := by
  cases h with
  | closed hsocket => exact ⟨[], (List.append_nil _).symm, by simp⟩
  | oversized address time network hsocket hnow hlimit =>
    refine ⟨[], ?_, by simp⟩
    rw [List.append_nil]
    exact taken_now hnow
  | refused address time clocked network frame reason hsocket hnow hframe hlimit htransmit =>
    exact exists_left_of_transmit hnow hframe hlimit htransmit
  | short address time clocked network frame written hsocket hnow hframe hlimit htransmit =>
    exact exists_left_of_transmit hnow hframe hlimit htransmit
  | taken address time clocked network frame hsocket hnow hframe hlimit htransmit =>
    exact exists_left_of_transmit hnow hframe hlimit htransmit

end Leaving

/-! ## Sinks that are open -/

/-- Over an open sink a frame is refused for its size exactly if it is over the limit, which
is the default for a setting of 0 and the setting otherwise, but not more than the maximum.
Framing never fails.  So a larger setting refuses no more, and from 176 on, and at 0, nothing
is refused; and what is sent keeps to all the limits there are, the receiver's included. -/
theorem size_decides {ν : Type} [Network ν] {config : SinkConfig} {sink : DatagramSink ν}
    (h : OpenWith config sink) (event : Event) :
    let setting := config.maxDatagramBytes
    let limit := if setting = 0 then 512 else min setting.toNat 1200
    ((sink.send event).1.isOverLimit = true ↔ limit < 48 + event.size) ∧
      ((sink.send event).1.isOverLimit = true → (sink.send event).1 =
        .rejected (.sendFailure (.frameOverLimit (48 + event.size) limit) none)) ∧
      (∀ time, ∃ frame, Frame.encode sink.sequence time [event] = .ok frame ∧
        frame.length = 48 + event.size) ∧
      (setting = 0 ∨ 176 ≤ setting → sink.fitting = Set.univ) ∧
      (∀ {μ : Type} [Network μ] (larger : SinkConfig) (other : DatagramSink μ),
        OpenWith larger other → setting ≠ 0 → setting ≤ larger.maxDatagramBytes →
          sink.fitting ⊆ other.fitting) ∧
      ∀ tapped : DatagramSink (Tap ν), OpenWith config tapped →
        ∃ left, (tapped.send event).2.network.taken = tapped.network.taken ++ left ∧
          ∀ datagram ∈ left, datagram.length ≤ 176 ∧
            (setting ≠ 0 → datagram.length ≤ setting.toNat) ∧ datagram.length ≤ 1200 ∧
            datagram.length ≤ Receiver.bufferLength := by
  intro setting limit
  have hlimit : sink.limit = limit := h.limit_eq.trans config.toNat_datagramLimit
  have hsending := sending_send sink event
  refine ⟨?_, ?_, ?_, ?_, ?_, ?_⟩
  · rw [hsending.isOverLimit_iff h.1, hlimit]
  · intro hover
    rw [hsending.eq_of_isOverLimit hover, hlimit]
  · intro time
    obtain ⟨frame, hframe, hlength, -⟩ := Frame.encode_singleton sink.sequence time event
    exact ⟨frame, hframe, hlength⟩
  · intro hsetting
    ext other
    rw [h.mem_fitting_iff]
    exact iff_of_true (other.frame_le.trans (SinkConfig.le_datagramLimit hsetting)) trivial
  · intro μ _ larger other hother hne hle accepted hmem
    rw [h.mem_fitting_iff] at hmem
    rw [hother.mem_fitting_iff]
    exact hmem.trans (SinkConfig.datagramLimit_mono hne hle)
  · intro tapped htapped
    obtain ⟨left, hleft, hall⟩ := (sending_send tapped event).exists_left
    refine ⟨left, hleft, fun datagram hmem => ?_⟩
    obtain ⟨hlength, hle⟩ := hall datagram hmem
    rw [← hlength, htapped.limit_eq] at hle
    have hmax : datagram.length ≤ 1200 := hle.trans config.datagramLimit_le_max
    refine ⟨hlength.trans_le event.frame_le, ?_, hmax, hmax.trans (by decide)⟩
    intro hne
    exact hle.trans (SinkConfig.datagramLimit_le_setting hne)

/-- A payload of four bytes just fits into 52, and one of five does not. -/
theorem sizes_at_boundary :
    let config : SinkConfig := { maxDatagramBytes := 52 }
    let first : DatagramSink Loopback := { network := { up := true, collector := none } }
    let sink := (first.serve (.init config)).2
    ∃ four five, Event.make 1 .info [1, 2, 3, 4] 0 = .ok four ∧
      Event.make 1 .info [1, 2, 3, 4, 5] 0 = .ok five ∧ OpenWith config sink ∧
      four ∈ sink.fitting ∧
      (sink.send five).1 = .rejected (.sendFailure (.frameOverLimit 53 52) none) := by
  intro config first sink
  obtain ⟨four, hfour⟩ : ∃ event, Event.make 1 .info [1, 2, 3, 4] 0 = .ok event := ⟨_, rfl⟩
  obtain ⟨five, hfive⟩ : ∃ event, Event.make 1 .info [1, 2, 3, 4, 5] 0 = .ok event := ⟨_, rfl⟩
  have hopen : OpenWith config sink :=
    openWith_of_init (Reached.new first.network) (by decide +kernel)
  obtain ⟨hfits, -⟩ := size_decides hopen four
  obtain ⟨hover, hanswer, -⟩ := size_decides hopen five
  refine ⟨four, five, hfour, hfive, hopen, ?_, ?_⟩
  · apply Bool.eq_false_of_not_eq_true
    rw [hfits]
    cases hfour
    decide
  · cases hfive
    exact hanswer (hover.mpr (by decide))

end DatagramSink

end Telemetry
