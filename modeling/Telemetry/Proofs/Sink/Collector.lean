import Telemetry.Proofs.Session.Ending
import Telemetry.Proofs.Sink.Datagram

/-!
# What reaches a collector

Over a network that delivers, a connected sink sends every event that fits and
rejects every other.  What has reached the collector is then settled by the
events handed to the sink: those that fit, one datagram each, numbered in the
order of the handovers.  An event that does not fit takes no number.
-/

namespace Telemetry

/-- Whether the event's frame is within the limit. -/
def Event.fits (limit : Nat) (event : Event) : Bool := 48 + event.size ≤ limit

/-- A peer that gets every datagram sent to it, as long as its network is live. -/
structure Collector (ν : Type) [Network ν] where
  peer : Address
  live : ν → Prop
  /-- The datagrams it got, oldest first. -/
  received : ν → List Bytes
  now {network : ν} (h : live network) :
    live (Network.now network).2 ∧ received (Network.now network).2 = received network
  transmit {network : ν} (h : live network) (datagram : Bytes) :
    ∃ after, Network.transmit network peer datagram = (.ok datagram.length, after) ∧
      live after ∧ received after = received network ++ [datagram]

/-- The collector of a host that talks to itself. -/
def Loopback.collecting (peer : Address) : Collector Loopback where
  peer
  live network := network.collector = some peer ∧ network.refused = false
  received network := network.delivered.reverse
  now h := ⟨h, rfl⟩
  transmit {network} h datagram := by
    obtain ⟨hcollector, hrefused⟩ := h
    refine ⟨{ network with delivered := datagram :: network.delivered }, ?_, ⟨hcollector, hrefused⟩,
      List.reverse_cons⟩
    change network.transmit peer datagram = _
    rw [transmit, if_neg (by simp [hrefused]), if_pos hcollector]

namespace DatagramSink

variable {ν : Type} [Network ν] {sink after : DatagramSink ν} {event : Event} {answer : Answer}

/-- A datagram sink always answers. -/
theorem neverPanics : NeverPanics (DatagramSink ν) := by
  intro sink event hanswer
  have hsending := sending_send sink event
  change (sink.send event).1 = .panicked at hanswer
  rw [hanswer] at hsending
  cases hsending

/-- A sink connected to the collector that has been handed `events` since `before` was
all that had arrived. -/
structure Serves (collector : Collector ν) (before : List Bytes) (limit : Nat)
    (sink : DatagramSink ν) (events : List Event) : Prop where
  socket_eq : sink.socket = some collector.peer
  limit_eq : sink.limit = limit
  live : collector.live sink.network
  sequence_eq : sink.sequence = .ofNat (events.countP (·.fits limit))
  arrived : ∃ datagrams, collector.received sink.network = before ++ datagrams ∧
    List.Forall₂ Carries datagrams (events.filter (·.fits limit)).zipIdx

variable {collector : Collector ν} {before : List Bytes} {limit : Nat} {events : List Event}

/-- A successful `init` over a live network begins the account. -/
theorem serves_of_init {network bound connected : ν} {config : SinkConfig} {others : List Address}
    (hresolve : Network.resolve network config.endpoint = .ok (collector.peer :: others))
    (hbind : Network.bind network collector.peer.unspecified = (.ok (), bound))
    (hconnect : Network.connect bound collector.peer = (.ok (), connected))
    (hlive : collector.live connected) :
    ∃ sink, init ({ network } : DatagramSink ν) config = (.ok (), sink) ∧
      Serves collector (collector.received connected) config.datagramLimit.toNat sink [] := by
  rw [init, hresolve]
  simp only [hbind, hconnect]
  exact ⟨_, rfl, rfl, rfl, hlive, rfl, [], (List.append_nil _).symm, .nil⟩

/-- Whatever is sent next is taken whole and arrives behind the others. -/
theorem Serves.transmit (h : Serves collector before limit sink events) {time : UInt64}
    {clocked : ν} (hnow : Network.now sink.network = (time, clocked)) {address : Address}
    (hsocket : sink.socket = some address) (datagram : Bytes) :
    ∃ network, Network.transmit clocked address datagram = (.ok datagram.length, network) ∧
      collector.live network ∧
      collector.received network = collector.received sink.network ++ [datagram] := by
  rw [h.socket_eq] at hsocket
  cases hsocket
  obtain ⟨hlive, hclocked⟩ := collector.now h.live
  rw [hnow] at hlive hclocked
  obtain ⟨network, htransmit, hlive', hreceived⟩ := collector.transmit hlive datagram
  exact ⟨network, htransmit, hlive', by rw [hreceived, hclocked]⟩

/-- One event more: it is accepted exactly if it fits, and either way the account of what
has arrived goes on. -/
theorem Serves.sending (h : Serves collector before limit sink events)
    (hsending : Sending sink event answer after) :
    (answer = .accepted ↔ event.fits limit = true) ∧
      Serves collector before limit after (events ++ [event]) := by
  have hfits : event.fits limit = true ↔ 48 + event.size ≤ sink.limit := by
    rw [h.limit_eq]
    exact decide_eq_true_iff
  obtain ⟨datagrams, hreceived, hcarries⟩ := h.arrived
  cases hsending with
  | closed hsocket =>
    rw [h.socket_eq] at hsocket
    cases hsocket
  | oversized address time network hsocket hnow hlimit =>
    have hfits : event.fits limit = false := by
      rw [Bool.eq_false_iff, Ne, hfits]
      omega
    obtain ⟨hlive, hclocked⟩ := collector.now h.live
    rw [hnow] at hlive hclocked
    refine ⟨by simp [hfits], { h with live := hlive, sequence_eq := ?_, arrived := ?_ }⟩
    · simp [h.sequence_eq, hfits]
    · exact ⟨datagrams, hclocked.trans hreceived, by simpa [hfits] using hcarries⟩
  | refused address time clocked network frame reason hsocket hnow hframe hlimit htransmit =>
    obtain ⟨network', htransmit', -⟩ := h.transmit hnow hsocket frame
    rw [htransmit] at htransmit'
    cases htransmit'
  | short address time clocked network frame written hsocket hnow hframe hlimit htransmit
      hwritten =>
    obtain ⟨network', htransmit', -⟩ := h.transmit hnow hsocket frame
    rw [htransmit] at htransmit'
    cases htransmit'
    exact absurd rfl hwritten
  | taken address time clocked network frame hsocket hnow hframe hlimit htransmit =>
    have hfits : event.fits limit = true := hfits.mpr hlimit
    obtain ⟨network', htransmit', hlive, harrived⟩ := h.transmit hnow hsocket frame
    rw [htransmit] at htransmit'
    cases htransmit'
    obtain ⟨frame', hframe', -, hnumbered⟩ := Frame.encode_singleton sink.sequence time event
    rw [hframe] at hframe'
    cases hframe'
    refine ⟨by simp [hfits], { h with live := hlive, sequence_eq := ?_, arrived := ?_ }⟩
    · simp [h.sequence_eq, hfits, UInt32.ofNat_add]
    · refine ⟨datagrams ++ [frame], by rw [harrived, hreceived, List.append_assoc], ?_⟩
      have hnumber := hnumbered _ h.sequence_eq
      rw [List.countP_eq_length_filter] at hnumber
      rw [List.filter_append, List.filter_singleton, hfits, cond_true, List.zipIdx_append]
      exact List.rel_append hcarries (.cons (by simpa using hnumber) .nil)

end DatagramSink

end Telemetry
