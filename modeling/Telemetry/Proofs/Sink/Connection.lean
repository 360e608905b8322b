import Telemetry.Proofs.Sink.Numbering

/-!
# The connection of a datagram sink

Over every run a datagram sink is what its last successful `init` made of it.
Peer and limit are those of that `init`, and the socket is held until a
`shutdown` comes, which leaves peer and limit as they are.  A request that fails
touches none of this, so a sink that cannot be connected anew goes on over the
connection that it has.
-/

namespace Telemetry

/-! ## The words for a missing socket -/

/-- A text that begins otherwise does not continue the front. -/
theorem append_ne_of_not_isPrefix {front text : String} (h : ¬ front.toList <+: text.toList)
    (rest : String) : front ++ rest ≠ text := by
  rintro rfl
  apply h
  rw [String.toList_append]
  exact List.prefix_append _ _

namespace SendFault

theorem reason_frameOverLimit_ne (size limit : Nat) :
    (frameOverLimit size limit).reason ≠ notConnected.reason := by
  change "frame of " ++ toString size ++ " bytes exceeds the " ++ toString limit ++
    " byte datagram limit" ≠ _
  rw [String.append_assoc, String.append_assoc, String.append_assoc]
  exact append_ne_of_not_isPrefix (by decide) _

theorem reason_shortWrite_ne (written size : Nat) :
    (shortWrite written size).reason ≠ notConnected.reason := by
  change "short datagram write: " ++ toString written ++ " of " ++ toString size ++ " bytes" ≠ _
  rw [String.append_assoc, String.append_assoc, String.append_assoc]
  exact append_ne_of_not_isPrefix (by decide) _

end SendFault

theorem Error.message_notConnected (source : Option String) :
    (sendFailure .notConnected source).message =
      "Sink send failed: UDP sink is not initialized" := rfl

theorem Error.message_ne_of_reason_ne {fault : SendFault}
    (h : fault.reason ≠ SendFault.notConnected.reason) (source : Option String) :
    (sendFailure fault source).message ≠ "Sink send failed: UDP sink is not initialized" := by
  rw [← message_notConnected source]
  change "Sink send failed: " ++ fault.reason ≠
    "Sink send failed: " ++ SendFault.notConnected.reason
  rwa [Ne, String.append_right_inj]

namespace DatagramSink

variable {ν : Type} [Network ν]

/-! ## Runs -/

/-- The error that a sink answers an `init` or a `send` with, if it does. -/
def errorOfInit? : Except Error Unit → Option Error
  | .error error => some error
  | .ok () => none

@[inherit_doc errorOfInit?]
def errorOfSend? : Answer → Option Error
  | .rejected error => some error
  | _ => none

/-- What a request makes of a sink, with the error if it fails. -/
def serve (sink : DatagramSink ν) : Request → Option Error × DatagramSink ν
  | .init config => (errorOfInit? (sink.init config).1, (sink.init config).2)
  | .send event => (errorOfSend? (sink.send event).1, (sink.send event).2)
  | .shutdown => (none, sink.shutdown)

/-- A request and the sink that it found. -/
structure Turn (ν : Type) where
  found : DatagramSink ν
  request : Request

/-- `Reached history sink`: a new sink has become this one in these turns. -/
inductive Reached : List (Turn ν) → DatagramSink ν → Prop where
  | new (network : ν) : Reached [] { network }
  /-- The network goes its own way between the requests. -/
  | drift {history : List (Turn ν)} {sink : DatagramSink ν} (h : Reached history sink)
      (network : ν) : Reached history { sink with network }
  | turn {history : List (Turn ν)} {sink : DatagramSink ν} (h : Reached history sink)
      (request : Request) :
      Reached (history ++ [{ found := sink, request }]) (sink.serve request).2

/-- What a successful `init` connects to, and the settings that it comes with. -/
structure Opening where
  address : Address
  config : SinkConfig
  deriving DecidableEq

/-- The opening that a turn is, if it is a successful `init`. -/
def Turn.opening? (turn : Turn ν) : Option Opening :=
  match turn.request with
  | .init config =>
    match (turn.found.init config).1, Network.resolve turn.found.network config.endpoint with
    | .ok (), .ok (address :: _) => some { address, config }
    | _, _ => none
  | _ => none

def lastOpening (history : List (Turn ν)) : Option Opening :=
  history.reverse.findSome? Turn.opening?

/-- The turns behind the last successful `init`, or all if there was none. -/
def sinceOpening (history : List (Turn ν)) : List (Turn ν) :=
  history.rtakeWhile fun turn => turn.opening?.isNone

/-! ## One request -/

section Request

variable {sink after : DatagramSink ν} {event : Event} {answer : Answer} {config : SinkConfig}
  {error : Error}

/-- A `send` that is not accepted leaves its trace in the network at most. -/
theorem Sending.eq_of_rejected (h : Sending sink event answer after)
    (hanswer : answer ≠ .accepted) : after = { sink with network := after.network } := by
  cases h with
  | taken => exact absurd rfl hanswer
  | _ => rfl

/-- An accepted event has gone out over the socket, in a frame under the sink's number. -/
theorem Sending.of_accepted (h : Sending sink event .accepted after) :
    ∃ address time clocked frame network, sink.socket = some address ∧
      Network.now sink.network = (time, clocked) ∧
      Frame.encode sink.sequence time [event] = .ok frame ∧
      Network.transmit clocked address frame = (.ok frame.length, network) ∧
      after = { sink with network, sequence := sink.sequence + 1 } := by
  cases h with
  | taken address time clocked network frame hsocket hnow hframe hlimit htransmit =>
    exact ⟨address, time, clocked, frame, network, hsocket, hnow, hframe, htransmit, rfl⟩

/-- Only a sink without a socket says that it has none. -/
theorem Sending.message_eq_iff (h : Sending sink event (.rejected error) after) :
    error.message = "Sink send failed: UDP sink is not initialized" ↔ sink.socket = none := by
  constructor
  · intro hmessage
    cases h with
    | closed hsocket => exact hsocket
    | oversized =>
      exact absurd hmessage
        (Error.message_ne_of_reason_ne (SendFault.reason_frameOverLimit_ne _ _) _)
    | refused => exact absurd hmessage (Error.message_ne_of_reason_ne (by decide) _)
    | short =>
      exact absurd hmessage (Error.message_ne_of_reason_ne (SendFault.reason_shortWrite_ne _ _) _)
  · intro hsocket
    cases h with
    | closed => exact Error.message_notConnected none
    | oversized address time network hopen =>
      exact absurd (hopen.symm.trans hsocket) (Option.some_ne_none address)
    | refused address time clocked network frame reason hopen =>
      exact absurd (hopen.symm.trans hsocket) (Option.some_ne_none address)
    | short address time clocked network frame written hopen =>
      exact absurd (hopen.symm.trans hsocket) (Option.some_ne_none address)

theorem Connecting.eq_of_error (h : Connecting sink config (.error error) after) :
    after = { sink with network := after.network } := by
  cases h <;> rfl

/-- A request that fails leaves its trace in the network at most. -/
theorem eq_of_serve_error {request : Request} (h : (sink.serve request).1 = some error) :
    (sink.serve request).2 = { sink with network := (sink.serve request).2.network } := by
  cases request with
  | init config =>
    have hconnecting := connecting_init sink config
    change errorOfInit? (sink.init config).1 = some error at h
    cases hresult : (sink.init config).1 with
    | error other =>
      rw [hresult] at hconnecting
      exact hconnecting.eq_of_error
    | ok =>
      rw [hresult] at h
      cases h
  | send event =>
    apply (sending_send sink event).eq_of_rejected
    intro hanswer
    change errorOfSend? (sink.send event).1 = some error at h
    rw [hanswer] at h
    cases h
  | shutdown => cases h

theorem opening?_of_error (h : (sink.init config).1 = .error error) :
    Turn.opening? { found := sink, request := .init config } = none := by
  simp only [Turn.opening?, h]

/-- A successful `init` sets everything. -/
theorem opening?_of_ok (h : (sink.init config).1 = .ok ()) :
    ∃ address, Turn.opening? { found := sink, request := .init config } =
        some { address, config } ∧
      (sink.init config).2.socket = some address ∧ (sink.init config).2.peer = some address ∧
      (sink.init config).2.limit = config.datagramLimit.toNat := by
  have hconnecting := connecting_init sink config
  simp only [Turn.opening?, h]
  rw [h] at hconnecting
  generalize (sink.init config).2 = after at hconnecting
  cases hconnecting with
  | connected address others bound network hresolve =>
    rw [hresolve]
    exact ⟨address, rfl, rfl, rfl, rfl⟩

end Request

/-! ## What every turn keeps -/

section Connection

variable {history : List (Turn ν)} {turn : Turn ν} {sink after : DatagramSink ν}
  {opening : Opening}

theorem lastOpening_append_of_some (h : turn.opening? = some opening) :
    lastOpening (history ++ [turn]) = some opening := by
  simp [lastOpening, h]

theorem lastOpening_append_of_none (h : turn.opening? = none) :
    lastOpening (history ++ [turn]) = lastOpening history := by
  simp [lastOpening, h]

theorem sinceOpening_append_of_some (h : turn.opening? = some opening) :
    sinceOpening (history ++ [turn]) = [] :=
  List.rtakeWhile_concat_neg _ _ _ (by simp [h])

theorem sinceOpening_append_of_none (h : turn.opening? = none) :
    sinceOpening (history ++ [turn]) = sinceOpening history ++ [turn] :=
  List.rtakeWhile_concat_pos _ _ _ (by simp [h])

theorem lastOpening_ne_none_iff :
    lastOpening history ≠ none ↔ ∃ turn ∈ history, turn.opening? ≠ none := by
  simp [lastOpening, List.findSome?_eq_none_iff]

/-- The sink is connected as the last opening says. -/
structure Connection (history : List (Turn ν)) (sink : DatagramSink ν) : Prop where
  peer_eq : sink.peer = (lastOpening history).map Opening.address
  limit_eq : sink.limit = (lastOpening history).elim 0 fun opening =>
    opening.config.datagramLimit.toNat
  socket_of_open : (∀ turn ∈ sinceOpening history, turn.request ≠ .shutdown) →
    sink.socket = sink.peer
  socket_of_shut : (∃ turn ∈ sinceOpening history, turn.request = .shutdown) →
    sink.socket = none

/-- A turn that neither opens nor shuts the sink keeps the connection. -/
theorem Connection.keep (h : Connection history sink) (hopening : turn.opening? = none)
    (hrequest : turn.request ≠ .shutdown) (hsocket : after.socket = sink.socket)
    (hpeer : after.peer = sink.peer) (hlimit : after.limit = sink.limit) :
    Connection (history ++ [turn]) after where
  peer_eq := by rw [lastOpening_append_of_none hopening, hpeer, h.peer_eq]
  limit_eq := by rw [lastOpening_append_of_none hopening, hlimit, h.limit_eq]
  socket_of_open hopen := by
    rw [sinceOpening_append_of_none hopening] at hopen
    rw [hsocket, hpeer]
    exact h.socket_of_open fun other hmem => hopen other (List.mem_append_left _ hmem)
  socket_of_shut hshut := by
    rw [sinceOpening_append_of_none hopening] at hshut
    obtain ⟨other, hmem, hother⟩ := hshut
    rw [hsocket]
    apply h.socket_of_shut
    rcases List.mem_append.mp hmem with hmem | hmem
    · exact ⟨other, hmem, hother⟩
    · rw [List.mem_singleton.mp hmem] at hother
      exact absurd hother hrequest

theorem Connection.serve (h : Connection history sink) (request : Request) :
    Connection (history ++ [{ found := sink, request }]) (sink.serve request).2 := by
  cases request with
  | init config =>
    change Connection _ (sink.init config).2
    cases hresult : (sink.init config).1 with
    | error error =>
      have hconnecting := connecting_init sink config
      rw [hresult] at hconnecting
      rw [hconnecting.eq_of_error]
      exact h.keep (opening?_of_error hresult) Request.noConfusion rfl rfl rfl
    | ok =>
      obtain ⟨address, hopening, hsocket, hpeer, hlimit⟩ := opening?_of_ok hresult
      refine ⟨?_, ?_, fun _ => hsocket.trans hpeer.symm, ?_⟩
      · rw [lastOpening_append_of_some hopening]
        exact hpeer
      · rw [lastOpening_append_of_some hopening]
        exact hlimit
      · rw [sinceOpening_append_of_some hopening]
        rintro ⟨turn, hmem, -⟩
        cases hmem
  | send event =>
    have hsending := sending_send sink event
    change Connection _ (sink.send event).2
    generalize (sink.send event).1 = answer, (sink.send event).2 = after at hsending
    apply h.keep rfl Request.noConfusion
    · exact hsending.socket_eq
    · cases hsending <;> rfl
    · cases hsending <;> rfl
  | shutdown =>
    have hopening : Turn.opening? { found := sink, request := .shutdown } = none := rfl
    refine ⟨?_, ?_, fun hopen => ?_, fun _ => rfl⟩
    · rw [lastOpening_append_of_none hopening]
      exact h.peer_eq
    · rw [lastOpening_append_of_none hopening]
      exact h.limit_eq
    · rw [sinceOpening_append_of_none hopening] at hopen
      exact absurd rfl (hopen _ (List.mem_append_right _ (List.mem_singleton_self _)))

/-- A socket is held from an opening until the sink is shut down. -/
theorem Connection.socket_ne_none_iff (h : Connection history sink) :
    sink.socket ≠ none ↔
      (∃ turn ∈ history, turn.opening? ≠ none) ∧
        ∀ turn ∈ sinceOpening history, turn.request ≠ .shutdown := by
  rw [← lastOpening_ne_none_iff]
  constructor
  · intro hsocket
    have hopen : ∀ turn ∈ sinceOpening history, turn.request ≠ .shutdown :=
      fun turn hmem hrequest => hsocket (h.socket_of_shut ⟨turn, hmem, hrequest⟩)
    rw [h.socket_of_open hopen, h.peer_eq] at hsocket
    exact ⟨fun hnone => hsocket (by rw [hnone]; rfl), hopen⟩
  · rintro ⟨hopening, hopen⟩
    rw [h.socket_of_open hopen, h.peer_eq]
    simpa using hopening

/-- The socket held is one to the peer. -/
theorem Connection.peer_of_socket (h : Connection history sink) {address : Address}
    (hsocket : sink.socket = some address) : sink.peer = some address := by
  by_cases hshut : ∃ turn ∈ sinceOpening history, turn.request = .shutdown
  · rw [h.socket_of_shut hshut] at hsocket
    cases hsocket
  · push Not at hshut
    rw [← h.socket_of_open hshut, hsocket]

/-- Every run keeps the connection that its last opening made. -/
theorem Reached.connection (h : Reached history sink) : Connection history sink := by
  induction h with
  | new network => exact ⟨rfl, rfl, fun _ => rfl, fun _ => rfl⟩
  | drift h network ih => exact ⟨ih.peer_eq, ih.limit_eq, ih.socket_of_open, ih.socket_of_shut⟩
  | turn h request ih => exact ih.serve request

end Connection

/-! ## Whole runs -/

/-- At every point of every run: a socket is held exactly if an `init` has succeeded and no
`shutdown` has come since the last that did.  Peer and limit are those of this `init`, before
and behind a `shutdown`, and the limit is 512 for a setting of 0 and otherwise the setting, but
not more than 1200.  A request that fails changes nothing of the sink, so behind an
`init` that fails the next event to be accepted still goes to the peer of the socket, under
the number that is next.  A `send` says that the sink is not initialized exactly where no
socket is held, and then looks at nothing else. -/
theorem connected_as_last_opened {history : List (Turn ν)} {sink : DatagramSink ν}
    (h : Reached history sink) :
    (sink.socket ≠ none ↔
        (∃ turn ∈ history, turn.opening? ≠ none) ∧
          ∀ turn ∈ sinceOpening history, turn.request ≠ .shutdown) ∧
      (∀ address, sink.socket = some address → sink.peer = some address) ∧
      sink.peer = (lastOpening history).map Opening.address ∧
      sink.limit = (lastOpening history).elim 0 (fun opening =>
        let setting := opening.config.maxDatagramBytes
        if setting = 0 then 512 else min setting.toNat 1200) ∧
      (∀ request error, (sink.serve request).1 = some error →
        (sink.serve request).2 = { sink with network := (sink.serve request).2.network }) ∧
      (∀ config error network event, (sink.init config).1 = .error error →
        let found : DatagramSink ν := { (sink.init config).2 with network }
        (found.send event).1 = .accepted →
          ∃ address time clocked frame taken, sink.socket = some address ∧
            Network.now network = (time, clocked) ∧
            Frame.encode sink.sequence time [event] = .ok frame ∧
            Network.transmit clocked address frame = (.ok frame.length, taken) ∧
            (found.send event).2 =
              { sink with network := taken, sequence := sink.sequence + 1 }) ∧
      ∀ event,
        ((∃ error, (sink.send event).1 = .rejected error ∧
            error.message = "Sink send failed: UDP sink is not initialized") ↔
          sink.socket = none) ∧
        (sink.socket = none → (sink.send event).2 = sink) := by
  have hconnection := h.connection
  have hlimit := hconnection.limit_eq
  simp only [SinkConfig.toNat_datagramLimit] at hlimit
  refine ⟨hconnection.socket_ne_none_iff, ?_, hconnection.peer_eq, hlimit,
    fun _ _ => eq_of_serve_error, ?_, fun event => ⟨?_, ?_⟩⟩
  · exact fun address => hconnection.peer_of_socket
  · intro config error network event hinit found haccepted
    have hfound : found = { sink with network } := by
      have hconnecting := connecting_init sink config
      rw [hinit] at hconnecting
      change { (sink.init config).2 with network } = _
      rw [hconnecting.eq_of_error]
    have hsending := sending_send found event
    rw [haccepted] at hsending
    obtain ⟨address, time, clocked, frame, taken, hsocket, hnow, hframe, htransmit, hafter⟩ :=
      hsending.of_accepted
    rw [hfound] at hsocket hnow hframe
    refine ⟨address, time, clocked, frame, taken, hsocket, hnow, hframe, htransmit, ?_⟩
    rw [hafter, hfound]
  · have hsending := sending_send sink event
    constructor
    · rintro ⟨error, hanswer, hmessage⟩
      rw [hanswer] at hsending
      exact hsending.message_eq_iff.mp hmessage
    · intro hsocket
      refine ⟨_, ?_, Error.message_notConnected none⟩
      rw [send, hsocket]
  · intro hsocket
    rw [send, hsocket]

/-- The interface goes down and a second `init` fails: the socket is still held, with the
first one's peer and limit, and a `shutdown` gives up the socket alone. -/
theorem connected_over_refused_reconnect :
    let config : SinkConfig := { maxDatagramBytes := 100 }
    let first : DatagramSink Loopback := { network := { up := true, collector := none } }
    let opened := (first.serve (.init config)).2
    let lost := { opened with network := { opened.network with up := false } }
    let kept := (lost.serve (.init {})).2
    let early : List (Turn Loopback) := [] ++ [{ found := first, request := .init config }]
    let history := early ++ [{ found := lost, request := .init {} }]
    let address : Address := { octets := [127, 0, 0, 1], port := 9000 }
    (Reached history kept ∧ kept.socket ≠ none ∧ kept.peer = some address ∧ kept.limit = 100 ∧
        (lost.serve (.init {})).1 =
          some (.sinkInit "127.0.0.1:9000" (some "network is unreachable"))) ∧
      Reached (history ++ [{ found := kept, request := .shutdown }]) kept.shutdown ∧
        kept.shutdown.socket = none ∧ kept.shutdown.peer = some address ∧
        kept.shutdown.limit = 100 ∧ (kept.shutdown.send .blank).2 = kept.shutdown := by
  intro config first opened lost kept early history address
  have hopened : Reached early opened := (Reached.new first.network).turn (.init config)
  have hkept : Reached history kept := (hopened.drift lost.network).turn (.init {})
  have hshut : Reached _ kept.shutdown := hkept.turn .shutdown
  have hfirst : Turn.opening? { found := first, request := .init config } =
      some { address, config } := by decide +kernel
  have hsecond : Turn.opening? { found := lost, request := .init {} } = none := by
    decide +kernel
  have hthird : Turn.opening? { found := kept, request := .shutdown } = none := rfl
  have hlast : lastOpening history = some { address, config } := by
    rw [lastOpening_append_of_none hsecond, lastOpening_append_of_some hfirst]
  have hsince : sinceOpening history = [{ found := lost, request := .init {} }] := by
    rw [sinceOpening_append_of_none hsecond, sinceOpening_append_of_some hfirst]
    rfl
  obtain ⟨hsocket, -, hpeer, hlimit, -⟩ := connected_as_last_opened hkept
  obtain ⟨-, -, hpeer', hlimit', -, -, hsend⟩ := connected_as_last_opened hshut
  rw [hlast] at hpeer hlimit
  rw [lastOpening_append_of_none hthird, hlast] at hpeer' hlimit'
  refine ⟨⟨hkept, hsocket.mpr ⟨?_, ?_⟩, hpeer, hlimit, by decide +kernel⟩,
    hshut, rfl, hpeer', hlimit', (hsend _).2 rfl⟩
  · exact ⟨_, List.mem_append_left _ (List.mem_singleton_self _), by simp [hfirst]⟩
  · intro turn hmem
    rw [hsince] at hmem
    rw [List.mem_singleton.mp hmem]
    exact Request.noConfusion

end DatagramSink

end Telemetry
