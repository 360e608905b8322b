import Telemetry.Event.Sample
import Telemetry.Proofs.Sink.Datagram

/-!
# Numbers without gaps

Over every run of a datagram sink the next number is the count of the events
accepted since the last successful `init`, and the datagrams that have left
since then carry these events, one each, under the numbers 0, 1, 2 and so on.
Whatever fails in between leaves no trace in the numbering.
-/

namespace Telemetry.DatagramSink

variable {ν : Type} [Network ν]

/-! ## Runs -/

/-- What can be asked of a sink. -/
inductive Request where
  | init (config : SinkConfig)
  | send (event : Event)
  | shutdown

/-- What was asked of a sink, with its answer and the datagrams that left meanwhile. -/
inductive Entry where
  | init (config : SinkConfig) (result : Except Error Unit)
  | send (event : Event) (answer : Answer) (left : List Bytes)
  | shutdown

def perform (handed : ν → List Bytes) (sink : DatagramSink ν) :
    Request → Entry × DatagramSink ν
  | .init config =>
    let (result, after) := sink.init config
    (.init config result, after)
  | .send event =>
    let (answer, after) := sink.send event
    let left := (handed after.network).drop (handed sink.network).length
    (.send event answer left, after)
  | .shutdown => (.shutdown, sink.shutdown)

/-- The entries of a run, in order, and the sink that it leads to. -/
def run (handed : ν → List Bytes) (sink : DatagramSink ν) :
    List Request → List Entry × DatagramSink ν
  | [] => ([], sink)
  | request :: requests =>
    let (entry, sink) := sink.perform handed request
    let (entries, sink) := sink.run handed requests
    (entry :: entries, sink)

namespace Entry

/-- A successful `init`. -/
def connects : Entry → Bool
  | .init _ (.ok ()) => true
  | _ => false

def accepted? : Entry → Option Event
  | .send event .accepted _ => some event
  | _ => none

def left : Entry → List Bytes
  | .send _ _ left => left
  | _ => []

end Entry

/-- The entries behind the last successful `init`, or all if there was none. -/
def sinceInit (entries : List Entry) : List Entry :=
  entries.rtakeWhile fun entry => !entry.connects

def acceptedEvents (entries : List Entry) : List Event := entries.filterMap Entry.accepted?

def leftDatagrams (entries : List Entry) : List Bytes := entries.flatMap Entry.left

/-! ## What every step keeps -/

variable {handed : ν → List Bytes} {entries : List Entry} {entry : Entry}
  {sink after : DatagramSink ν}

theorem sinceInit_of_connects (h : entry.connects = true) : sinceInit (entries ++ [entry]) = [] :=
  List.rtakeWhile_concat_neg _ _ _ (by simp [h])

theorem sinceInit_of_not_connects (h : entry.connects = false) :
    sinceInit (entries ++ [entry]) = sinceInit entries ++ [entry] :=
  List.rtakeWhile_concat_pos _ _ _ (by simp [h])

/-- The numbering of a sink behind these entries. -/
structure Numbered (entries : List Entry) (sink : DatagramSink ν) : Prop where
  sequence_eq : sink.sequence = .ofNat (acceptedEvents (sinceInit entries)).length
  carried : List.Forall₂ Carries (leftDatagrams (sinceInit entries))
    (acceptedEvents (sinceInit entries)).zipIdx
  /-- Nothing has left before the first successful `init`. -/
  closed : (∀ entry ∈ entries, entry.connects = false) →
    sink.socket = none ∧ sink.sequence = 0 ∧ leftDatagrams entries = []

omit [Network ν] in
theorem numbered_of_connects (h : entry.connects = true) (hsequence : sink.sequence = 0) :
    Numbered (entries ++ [entry]) sink where
  sequence_eq := by
    rw [sinceInit_of_connects h, hsequence]
    rfl
  carried := by
    rw [sinceInit_of_connects h]
    exact .nil
  closed hall := by
    have hentry := hall entry (by simp)
    rw [h] at hentry
    cases hentry

omit [Network ν] in
/-- A step in which nothing leaves keeps the numbering. -/
theorem Numbered.idle (h : Numbered entries sink) (hconnects : entry.connects = false)
    (haccepted : entry.accepted? = none) (hleft : entry.left = [])
    (hsocket : sink.socket = none → after.socket = none)
    (hsequence : after.sequence = sink.sequence) : Numbered (entries ++ [entry]) after := by
  have hsince : sinceInit (entries ++ [entry]) = sinceInit entries ++ [entry] :=
    sinceInit_of_not_connects hconnects
  have hevents : acceptedEvents (sinceInit (entries ++ [entry])) =
      acceptedEvents (sinceInit entries) := by
    simp [hsince, acceptedEvents, haccepted]
  have hdatagrams : leftDatagrams (sinceInit (entries ++ [entry])) =
      leftDatagrams (sinceInit entries) := by
    simp [hsince, leftDatagrams, hleft]
  constructor
  · rw [hevents, hsequence, h.sequence_eq]
  · rw [hevents, hdatagrams]
    exact h.carried
  · intro hall
    obtain ⟨hnone, hzero, hempty⟩ := h.closed fun entry hmem => hall entry (by simp [hmem])
    refine ⟨hsocket hnone, hsequence.trans hzero, ?_⟩
    simpa [leftDatagrams, hleft] using hempty

omit [Network ν] in
/-- An accepted event gets the next number. -/
theorem Numbered.accepted {event : Event} {datagram : Bytes} (h : Numbered entries sink)
    (hsocket : sink.socket ≠ none) (hsequence : after.sequence = sink.sequence + 1)
    (hcarries : ∀ number, sink.sequence = .ofNat number → Carries datagram (event, number)) :
    Numbered (entries ++ [.send event .accepted [datagram]]) after := by
  have hsince : sinceInit (entries ++ [.send event .accepted [datagram]]) =
      sinceInit entries ++ [.send event .accepted [datagram]] := sinceInit_of_not_connects rfl
  have hevents : acceptedEvents (sinceInit (entries ++ [.send event .accepted [datagram]])) =
      acceptedEvents (sinceInit entries) ++ [event] := by
    simp [hsince, acceptedEvents, Entry.accepted?]
  have hdatagrams : leftDatagrams (sinceInit (entries ++ [.send event .accepted [datagram]])) =
      leftDatagrams (sinceInit entries) ++ [datagram] := by
    simp [hsince, leftDatagrams, Entry.left]
  constructor
  · rw [hevents, hsequence, h.sequence_eq, List.length_append, UInt32.ofNat_add]
    rfl
  · rw [hevents, hdatagrams, List.zipIdx_append]
    exact List.rel_append h.carried (.cons (hcarries _ (by simp [h.sequence_eq])) .nil)
  · intro hall
    exact absurd (h.closed fun entry hmem => hall entry (by simp [hmem])).1 hsocket

theorem handed_perform (hnetwork : HandsOver ν handed) (sink : DatagramSink ν)
    (request : Request) :
    handed (sink.perform handed request).2.network =
      handed sink.network ++ (sink.perform handed request).1.left := by
  cases request with
  | init config =>
    have hconnecting := connecting_init sink config
    rw [DatagramSink.perform]
    generalize sink.init config = outcome at hconnecting
    obtain ⟨result, after⟩ := outcome
    exact (hconnecting.handed_eq hnetwork).trans (List.append_nil _).symm
  | send event =>
    have hsending := sending_send sink event
    rw [DatagramSink.perform]
    generalize sink.send event = outcome at hsending
    obtain ⟨answer, after⟩ := outcome
    by_cases hanswer : answer = .accepted
    · subst hanswer
      obtain ⟨-, datagram, hhanded, -⟩ := hsending.handed_of_accepted hnetwork
      simp [hhanded, Entry.left]
    · simp [(hsending.handed_of_rejected hnetwork hanswer).2, Entry.left]
  | shutdown => exact (List.append_nil _).symm

theorem Numbered.perform (hnetwork : HandsOver ν handed) (h : Numbered entries sink)
    (request : Request) :
    Numbered (entries ++ [(sink.perform handed request).1])
      (sink.perform handed request).2 := by
  cases request with
  | init config =>
    have hconnecting := connecting_init sink config
    rw [DatagramSink.perform]
    generalize sink.init config = outcome at hconnecting
    obtain ⟨result, after⟩ := outcome
    cases hconnecting with
    | connected => exact numbered_of_connects rfl rfl
    | _ => exact h.idle rfl rfl rfl id rfl
  | send event =>
    have hsending := sending_send sink event
    rw [DatagramSink.perform]
    generalize sink.send event = outcome at hsending
    obtain ⟨answer, after⟩ := outcome
    by_cases hanswer : answer = .accepted
    · subst hanswer
      obtain ⟨hsequence, datagram, hhanded, hcarries⟩ := hsending.handed_of_accepted hnetwork
      simp only [hhanded, List.drop_left]
      exact h.accepted hsending.socket_ne_none hsequence hcarries
    · obtain ⟨hsequence, hhanded⟩ := hsending.handed_of_rejected hnetwork hanswer
      simp only [hhanded, List.drop_length]
      refine h.idle rfl ?_ rfl (fun hnone => hsending.socket_eq.trans hnone) hsequence
      cases answer <;> simp_all [Entry.accepted?]
  | shutdown => exact h.idle rfl rfl rfl (fun _ => rfl) rfl

theorem Numbered.run (hnetwork : HandsOver ν handed) (h : Numbered entries sink)
    (requests : List Request) :
    Numbered (entries ++ (sink.run handed requests).1) (sink.run handed requests).2 := by
  induction requests generalizing entries sink with
  | nil => simpa [DatagramSink.run] using h
  | cons request requests ih =>
    have hrest := ih (h.perform hnetwork request)
    rwa [List.append_assoc] at hrest

/-- What has left is in the entries. -/
theorem handed_run (hnetwork : HandsOver ν handed) (sink : DatagramSink ν)
    (requests : List Request) :
    handed (sink.run handed requests).2.network =
      handed sink.network ++ leftDatagrams (sink.run handed requests).1 := by
  induction requests generalizing sink with
  | nil => simp [DatagramSink.run, leftDatagrams]
  | cons request requests ih =>
    change handed ((sink.perform handed request).2.run handed requests).2.network = _
    rw [ih, handed_perform hnetwork, List.append_assoc]
    rfl

/-! ## Whole runs -/

/-- From a new sink on: the next number counts the events accepted since the last
successful `init`, modulo 2^32, and the datagrams that have left since then carry just
these events under the numbers from 0 on.  Before the first successful `init` nothing
leaves and the number is 0.  A `send` that fails hands nothing over and uses up no
number. -/
theorem numbered_without_gap (hnetwork : HandsOver ν handed) (network : ν)
    (requests : List Request) :
    let entries := (run handed ({ network } : DatagramSink ν) requests).1
    let sink := (run handed ({ network } : DatagramSink ν) requests).2
    let since := sinceInit entries
    sink.sequence = .ofNat (acceptedEvents since).length ∧
      List.Forall₂ Carries (leftDatagrams since) (acceptedEvents since).zipIdx ∧
      ((∀ entry ∈ entries, entry.connects = false) →
        sink.sequence = 0 ∧ leftDatagrams entries = []) ∧
      handed sink.network = handed network ++ leftDatagrams entries ∧
      ∀ event,
        match sink.send event with
        | (.accepted, after) =>
          after.sequence = sink.sequence + 1 ∧
            (handed after.network).length = (handed sink.network).length + 1
        | (_, after) =>
          after.sequence = sink.sequence ∧ handed after.network = handed sink.network := by
  intro entries sink since
  have hnew : Numbered [] ({ network } : DatagramSink ν) :=
    { sequence_eq := rfl
      carried := .nil
      closed := fun _ => ⟨rfl, rfl, rfl⟩ }
  have hnumbered : Numbered entries sink := hnew.run hnetwork requests
  refine ⟨hnumbered.sequence_eq, hnumbered.carried, fun hall => (hnumbered.closed hall).2,
    handed_run hnetwork _ requests, ?_⟩
  intro event
  have hsending := sending_send sink event
  generalize sink.send event = outcome at hsending
  obtain ⟨answer, after⟩ := outcome
  cases answer with
  | accepted =>
    obtain ⟨hsequence, datagram, hhanded, -⟩ := hsending.handed_of_accepted hnetwork
    exact ⟨hsequence, by rw [hhanded, List.length_append, List.length_singleton]⟩
  | rejected error => exact hsending.handed_of_rejected hnetwork (by simp)
  | panicked => exact hsending.handed_of_rejected hnetwork (by simp)

/-- A `send` too early, an endpoint that is none, a send that is over the limit and one
that the system refuses, an `init` that fails and a `send` too late. -/
theorem numbered_over_failures :
    let first : Event := .blank
    let second : Event := { Event.blank with id := 1 }
    let requests : List Request :=
      [.send first, .init { endpoint := "nowhere" }, .init { maxDatagramBytes := 48 },
        .send first, .send second, .send (Event.fullSample 2), .send second,
        .init { endpoint := "nowhere" }, .shutdown, .send first]
    let network : Tap Loopback := { inner := { up := true, collector := none } }
    ∃ entries after, run Tap.taken { network } requests = (entries, after) ∧
      after.sequence = 2 ∧
      List.Forall₂ Carries after.network.taken [(first, 0), (second, 1)] := by
  intro first second requests network
  have hwhole (network : Loopback) (address : Address) (datagram : Bytes) (written : Nat)
      (h : (Network.transmit network address datagram).1 = .ok written) :
      written = datagram.length := by
    change (network.transmit address datagram).1 = .ok written at h
    rw [Loopback.transmit] at h
    split at h
    · cases h
    · split at h <;> (cases h; rfl)
  have hevents : acceptedEvents (sinceInit (run Tap.taken { network } requests).1) =
      [first, second] := by
    decide +kernel
  have hleft : leftDatagrams (sinceInit (run Tap.taken { network } requests).1) =
      leftDatagrams (run Tap.taken { network } requests).1 := by
    decide +kernel
  obtain ⟨hsequence, hcarried, -, hhanded, -⟩ :=
    numbered_without_gap (Tap.handsOver hwhole) network requests
  rcases hrun : run Tap.taken { network } requests with ⟨entries, after⟩
  rw [hrun] at hevents hleft hsequence hcarried hhanded
  rw [hevents] at hsequence hcarried
  rw [hleft, ← List.nil_append (leftDatagrams _), ← hhanded] at hcarried
  exact ⟨entries, after, rfl, hsequence, hcarried⟩

end Telemetry.DatagramSink
