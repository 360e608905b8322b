import Telemetry.Proofs.Wire.Writing
import Telemetry.Sink.Datagram

/-!
# What a datagram sink can do

A `send` ends in one of five ways and so does an `init`, each with what
it asks of the sink and all that it changes.  An event by itself always makes a
frame, so framing is never what a `send` fails at.
-/

namespace Telemetry

/-- The datagram is a frame with this event alone, under this number modulo 2^32. -/
def Carries (datagram : Bytes) (numbered : Event × Nat) : Prop :=
  ∃ header, Frame.decode datagram = .ok { header, events := [numbered.1] } ∧
    header.sequence = .ofNat numbered.2

theorem Frame.encode_singleton (sequence : UInt32) (timestamp : UInt64) (event : Event) :
    ∃ frame, encode sequence timestamp [event] = .ok frame ∧
      frame.length = 48 + event.size ∧
      ∀ number, sequence = .ofNat number → Carries frame (event, number) := by
  have hsize : payloadSize [event] ≤ maxPayloadSize := by
    have hle := event.size_le
    simp only [payloadSize, Event.encodedLength, Event.fixedLength, maxPayloadSize, maxPayload,
      UInt32.size] at hle ⊢
    omega
  refine ⟨_, encode_of_le sequence timestamp hsize, ?_, ?_⟩
  · rw [List.length_append, Header.length_toBytes, length_flatMap_encode, payloadSize,
      payloadSize, Event.encodedLength, Event.fixedLength]
    omega
  · intro number hnumber
    have hdecode := decode_append sequence timestamp hsize []
    rw [List.append_nil] at hdecode
    exact ⟨_, hdecode, hnumber⟩

/-! ## Networks that take datagrams whole -/

/-- The network takes a datagram whole or not at all, and says which; `handed`
shows the datagrams it has taken, oldest first. -/
structure HandsOver (ν : Type) [Network ν] (handed : ν → List Bytes) : Prop where
  bind (network : ν) (address : Address) :
    handed (Network.bind network address).2 = handed network
  connect (network : ν) (address : Address) :
    handed (Network.connect network address).2 = handed network
  now (network : ν) : handed (Network.now network).2 = handed network
  transmit (network : ν) (address : Address) (datagram : Bytes) :
    match Network.transmit network address datagram with
    | (.ok written, after) =>
      written = datagram.length ∧ handed after = handed network ++ [datagram]
    | (.error _, after) => handed after = handed network

/-- A network with a record of the datagrams that it took. -/
structure Tap (ν : Type) where
  inner : ν
  /-- Oldest first. -/
  taken : List Bytes := []

namespace Tap

variable {ν : Type} [Network ν]

def bind (tap : Tap ν) (address : Address) : Except String Unit × Tap ν :=
  let (result, inner) := Network.bind tap.inner address
  (result, { tap with inner })

def connect (tap : Tap ν) (address : Address) : Except String Unit × Tap ν :=
  let (result, inner) := Network.connect tap.inner address
  (result, { tap with inner })

def transmit (tap : Tap ν) (address : Address) (datagram : Bytes) : Except String Nat × Tap ν :=
  match Network.transmit tap.inner address datagram with
  | (.ok written, inner) => (.ok written, { inner, taken := tap.taken ++ [datagram] })
  | (.error reason, inner) => (.error reason, { tap with inner })

def now (tap : Tap ν) : UInt64 × Tap ν :=
  let (time, inner) := Network.now tap.inner
  (time, { tap with inner })

instance : Network (Tap ν) where
  resolve tap := Network.resolve tap.inner
  bind := bind
  connect := connect
  transmit := transmit
  now := now

/-- The record is what was handed over, if datagrams are taken whole. -/
theorem handsOver (hwhole : ∀ (network : ν) (address : Address) (datagram : Bytes) (written : Nat),
      (Network.transmit network address datagram).1 = .ok written →
        written = datagram.length) : HandsOver (Tap ν) taken where
  bind _ _ := rfl
  connect _ _ := rfl
  now _ := rfl
  transmit tap address datagram := by
    have hwritten := hwhole tap.inner address datagram
    have htap : Network.transmit tap address datagram = transmit tap address datagram := rfl
    rw [htap, transmit]
    rcases htransmit : Network.transmit tap.inner address datagram with ⟨result, inner⟩
    rw [htransmit] at hwritten
    cases result with
    | ok written => exact ⟨hwritten written rfl, rfl⟩
    | error reason => rfl

end Tap

namespace DatagramSink

variable {ν : Type} [Network ν]

/-- `Sending sink event answer after`: how a `send` can end. -/
inductive Sending (sink : DatagramSink ν) (event : Event) : Answer → DatagramSink ν → Prop where
  | closed (hsocket : sink.socket = none) :
      Sending sink event (.rejected (.sendFailure .notConnected none)) sink
  | oversized (address : Address) (time : UInt64) (network : ν)
      (hsocket : sink.socket = some address) (hnow : Network.now sink.network = (time, network))
      (hlimit : sink.limit < 48 + event.size) :
      Sending sink event
        (.rejected (.sendFailure (.frameOverLimit (48 + event.size) sink.limit) none))
        { sink with network }
  | refused (address : Address) (time : UInt64) (clocked network : ν) (frame : Bytes)
      (reason : String) (hsocket : sink.socket = some address)
      (hnow : Network.now sink.network = (time, clocked))
      (hframe : Frame.encode sink.sequence time [event] = .ok frame)
      (hlimit : 48 + event.size ≤ sink.limit)
      (htransmit : Network.transmit clocked address frame = (.error reason, network)) :
      Sending sink event (.rejected (.sendFailure .refusedByNetwork (some reason)))
        { sink with network }
  | short (address : Address) (time : UInt64) (clocked network : ν) (frame : Bytes)
      (written : Nat) (hsocket : sink.socket = some address)
      (hnow : Network.now sink.network = (time, clocked))
      (hframe : Frame.encode sink.sequence time [event] = .ok frame)
      (hlimit : 48 + event.size ≤ sink.limit)
      (htransmit : Network.transmit clocked address frame = (.ok written, network))
      (hwritten : written ≠ frame.length) :
      Sending sink event (.rejected (.sendFailure (.shortWrite written frame.length) none))
        { sink with network }
  | taken (address : Address) (time : UInt64) (clocked network : ν) (frame : Bytes)
      (hsocket : sink.socket = some address)
      (hnow : Network.now sink.network = (time, clocked))
      (hframe : Frame.encode sink.sequence time [event] = .ok frame)
      (hlimit : 48 + event.size ≤ sink.limit)
      (htransmit : Network.transmit clocked address frame = (.ok frame.length, network)) :
      Sending sink event .accepted { sink with network, sequence := sink.sequence + 1 }

/-- Every `send` ends in one of these ways. -/
theorem sending_send (sink : DatagramSink ν) (event : Event) :
    Sending sink event (sink.send event).1 (sink.send event).2 := by
  rw [send]
  split
  · next hsocket => exact .closed hsocket
  · next address hsocket =>
    rcases hnow : Network.now sink.network with ⟨time, clocked⟩
    obtain ⟨frame, hframe, hlength, -⟩ := Frame.encode_singleton sink.sequence time event
    simp only [hframe]
    split
    · next hlimit =>
      rw [hlength] at hlimit ⊢
      exact .oversized address time clocked hsocket hnow hlimit
    · next hlimit =>
      have hlimit : 48 + event.size ≤ sink.limit := by
        rw [← hlength]
        exact not_lt.mp hlimit
      split
      · next reason network htransmit =>
        exact .refused address time clocked network frame reason hsocket hnow hframe hlimit
          htransmit
      · next written network htransmit =>
        split
        · next hwritten =>
          subst hwritten
          exact .taken address time clocked network frame hsocket hnow hframe hlimit htransmit
        · next hwritten =>
          exact .short address time clocked network frame written hsocket hnow hframe hlimit
            htransmit hwritten

theorem Sending.socket_eq {sink after : DatagramSink ν} {event : Event} {answer : Answer}
    (h : Sending sink event answer after) : after.socket = sink.socket := by
  cases h <;> rfl

/-- An event is only accepted over a socket. -/
theorem Sending.socket_ne_none {sink after : DatagramSink ν} {event : Event}
    (h : Sending sink event .accepted after) : sink.socket ≠ none := by
  cases h with
  | taken address time clocked network frame hsocket =>
    rw [hsocket]
    exact Option.some_ne_none address

/-- `Connecting sink config result after`: how an `init` can end. -/
inductive Connecting (sink : DatagramSink ν) (config : SinkConfig) :
    Except Error Unit → DatagramSink ν → Prop where
  | unresolved (reason : String)
      (hresolve : Network.resolve sink.network config.endpoint = .error reason) :
      Connecting sink config (.error (.sinkInit config.endpoint (some reason))) sink
  | nowhere (hresolve : Network.resolve sink.network config.endpoint = .ok []) :
      Connecting sink config (.error (.sinkInit config.endpoint none)) sink
  | unbound (address : Address) (others : List Address) (reason : String) (network : ν)
      (hresolve : Network.resolve sink.network config.endpoint = .ok (address :: others))
      (hbind : Network.bind sink.network address.unspecified = (.error reason, network)) :
      Connecting sink config (.error (.sinkInit config.endpoint (some reason)))
        { sink with network }
  | unreachable (address : Address) (others : List Address) (reason : String) (bound network : ν)
      (hresolve : Network.resolve sink.network config.endpoint = .ok (address :: others))
      (hbind : Network.bind sink.network address.unspecified = (.ok (), bound))
      (hconnect : Network.connect bound address = (.error reason, network)) :
      Connecting sink config (.error (.sinkInit config.endpoint (some reason)))
        { sink with network }
  | connected (address : Address) (others : List Address) (bound network : ν)
      (hresolve : Network.resolve sink.network config.endpoint = .ok (address :: others))
      (hbind : Network.bind sink.network address.unspecified = (.ok (), bound))
      (hconnect : Network.connect bound address = (.ok (), network)) :
      Connecting sink config (.ok ())
        { network, socket := some address, peer := some address,
          limit := config.datagramLimit.toNat, sequence := 0 }

/-- Every `init` ends in one of these ways. -/
theorem connecting_init (sink : DatagramSink ν) (config : SinkConfig) :
    Connecting sink config (sink.init config).1 (sink.init config).2 := by
  rw [init]
  split
  · next reason hresolve => exact .unresolved reason hresolve
  · next hresolve => exact .nowhere hresolve
  · next address others hresolve =>
    split
    · next reason network hbind => exact .unbound address others reason network hresolve hbind
    · next bound hbind =>
      split
      · next reason network hconnect =>
        exact .unreachable address others reason bound network hresolve hbind hconnect
      · next network hconnect =>
        exact .connected address others bound network hresolve hbind hconnect

/-! ## What sending hands over -/

section HandsOver

variable {handed : ν → List Bytes} {sink after : DatagramSink ν} {event : Event}
  {answer : Answer}

/-- An accepted event leaves in a datagram of its own, under the next number. -/
theorem Sending.handed_of_accepted (hnetwork : HandsOver ν handed)
    (h : Sending sink event .accepted after) :
    after.sequence = sink.sequence + 1 ∧
      ∃ datagram, handed after.network = handed sink.network ++ [datagram] ∧
        ∀ number, sink.sequence = .ofNat number → Carries datagram (event, number) := by
  cases h with
  | taken address time clocked network frame hsocket hnow hframe hlimit htransmit =>
    obtain ⟨other, hother, -, hcarries⟩ := Frame.encode_singleton sink.sequence time event
    rw [hframe] at hother
    cases hother
    have hclocked := hnetwork.now sink.network
    have hhanded := hnetwork.transmit clocked address frame
    rw [hnow] at hclocked
    rw [htransmit] at hhanded
    exact ⟨rfl, frame, by rw [hhanded.2, hclocked], hcarries⟩

/-- Where a `send` fails nothing leaves and no number is used up. -/
theorem Sending.handed_of_rejected (hnetwork : HandsOver ν handed)
    (h : Sending sink event answer after) (hanswer : answer ≠ .accepted) :
    after.sequence = sink.sequence ∧ handed after.network = handed sink.network := by
  cases h with
  | closed hsocket => exact ⟨rfl, rfl⟩
  | oversized address time network hsocket hnow hlimit =>
    have hclocked := hnetwork.now sink.network
    rw [hnow] at hclocked
    exact ⟨rfl, hclocked⟩
  | refused address time clocked network frame reason hsocket hnow hframe hlimit htransmit =>
    have hclocked := hnetwork.now sink.network
    have hhanded := hnetwork.transmit clocked address frame
    rw [hnow] at hclocked
    rw [htransmit] at hhanded
    exact ⟨rfl, hhanded.trans hclocked⟩
  | short address time clocked network frame written hsocket hnow hframe hlimit htransmit
      hwritten =>
    have hhanded := hnetwork.transmit clocked address frame
    rw [htransmit] at hhanded
    exact absurd hhanded.1 hwritten
  | taken => exact absurd rfl hanswer

/-- Making a connection hands nothing over. -/
theorem Connecting.handed_eq {config : SinkConfig} {result : Except Error Unit}
    (hnetwork : HandsOver ν handed) (h : Connecting sink config result after) :
    handed after.network = handed sink.network := by
  have hbound {address : Address} {result : Except String Unit} {bound : ν}
      (hbind : Network.bind sink.network address = (result, bound)) :
      handed bound = handed sink.network := by
    have hhanded := hnetwork.bind sink.network address
    rwa [hbind] at hhanded
  have hconnected {bound network : ν} {address : Address} {result : Except String Unit}
      (hconnect : Network.connect bound address = (result, network)) :
      handed network = handed bound := by
    have hhanded := hnetwork.connect bound address
    rwa [hconnect] at hhanded
  cases h with
  | unresolved reason hresolve => rfl
  | nowhere hresolve => rfl
  | unbound address others reason network hresolve hbind => exact hbound hbind
  | unreachable address others reason bound network hresolve hbind hconnect =>
    exact (hconnected hconnect).trans (hbound hbind)
  | connected address others bound network hresolve hbind hconnect =>
    exact (hconnected hconnect).trans (hbound hbind)

end HandsOver

end DatagramSink

end Telemetry
