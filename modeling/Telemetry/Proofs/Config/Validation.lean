import Telemetry.Config.Reader
import Telemetry.Proofs.Agent.Moves

/-!
# Validation of configurations

Whether a configuration can be used is decided in three places: when it is
parsed, when the ring is created and when the agent starts.  Each decision is
described here by the fields it depends on, and then they are compared.  Parsing
and starting share the check of the agent's part, so there they cannot differ.
The capacity is checked twice, and the two checks part at the largest word: it
has no successor, which is an invalid argument to the ring and nothing that
parsing looks at.
-/

namespace Telemetry

open Yaml (Codec)

/-- Whether a result is an error of a kind. -/
def FailsAs {α : Type} (result : Except Error α) (kind : ErrorKind) : Prop :=
  ∃ error, result = .error error ∧ error.kind = kind

@[simp]
theorem failsAs_ok {α : Type} (value : α) (kind : ErrorKind) :
    ¬FailsAs (.ok value) kind := by
  rintro ⟨error, h, -⟩
  cases h

@[simp]
theorem failsAs_error {α : Type} (error : Error) (kind : ErrorKind) :
    FailsAs (.error error : Except Error α) kind ↔ error.kind = kind :=
  ⟨fun ⟨_, h, hkind⟩ => Except.error.inj h ▸ hkind, fun h => ⟨error, rfl, h⟩⟩

/-! ## The three decisions -/

/-- The ring refuses a capacity as an argument where it is 0 and where there is
no number of slots for it. -/
theorem EventRing.create_failsAs_invalidArgument_iff (memory : Memory) (capacity : UInt64) :
    FailsAs (create memory capacity) .invalidArgument ↔
      capacity = 0 ∨ capacity.toNat + 1 = UInt64.size := by
  unfold create
  split
  · next hzero => simp [hzero, Error.kind]
  · next hzero =>
    split
    · next hlast => simp [hlast, Error.kind]
    · next hlast => split <;> simp [hzero, hlast, Error.kind]

/-- Creating a ring succeeds, fails for want of memory or is refused as an
argument. -/
theorem EventRing.create_cases (memory : Memory) (capacity : UInt64) :
    (∃ ring, create memory capacity = .ok ring) ∨
      FailsAs (create memory capacity) .allocationFailure ∨
      FailsAs (create memory capacity) .invalidArgument := by
  unfold create
  split
  · simp [Error.kind]
  · split
    · simp [Error.kind]
    · split <;> simp [Error.kind]

/-- An agent is refused for an argument exactly where its configuration does not validate,
whether there is a thread for it or not. -/
theorem Agent.start_failsAs_iff {σ : Type} (config : AgentConfig) (ring : EventRing) (sink : σ)
    (refusal : Option String) :
    FailsAs (start config ring sink refusal) .invalidArgument ↔ config.validate ≠ .ok () := by
  cases h : config.validate with
  | error fault => simp [start_of_invalid h, Error.kind]
  | ok _ =>
    cases refusal with
    | some reason => simp [start_of_refused h, Error.kind]
    | none =>
      obtain ⟨agent, hstart⟩ := start_of_valid h ring sink
      simp [hstart]

namespace Config

variable {config : Config} {text : String}

theorem validate_eq_ok_iff (config : Config) :
    config.validate = .ok () ↔
      config.ringCapacity ≠ 0 ∧ config.agent.validate = .ok () ∧ config.sink.endpoint ≠ "" := by
  unfold validate
  split
  · next hzero => simp [hzero]
  · next hzero =>
    cases config.agent.validate with
    | error fault => simp
    | ok _ => split <;> simp_all

/-- Whatever part is at fault, it is a fault of the configuration. -/
theorem validate_failsAs_config (h : config.validate ≠ .ok ()) :
    FailsAs config.validate .config := by
  rw [ne_eq, validate_eq_ok_iff] at h
  unfold validate
  split
  · simp [Error.kind]
  · next hcapacity =>
    cases hagent : config.agent.validate with
    | error fault => simp [Error.kind]
    | ok _ =>
      have hendpoint : config.sink.endpoint = "" := by
        by_contra hne
        exact h ⟨hcapacity, hagent, hne⟩
      simp [hendpoint, Error.kind]

/-- Parsing a text that can be read is validating what was read. -/
theorem parse_of_read {δ ν : Type} [Codec δ ν] (h : read text δ = .ok config) :
    parse text δ = config.validate.map fun _ => config := by
  unfold parse
  simp only [h]
  cases config.validate <;> rfl

theorem parse_eq_ok_iff :
    parse text = .ok config ↔ read text = .ok config ∧ config.validate = .ok () := by
  cases h : read text with
  | error fault => simp [parse, h]
  | ok found =>
    rw [parse_of_read h]
    cases hvalid : found.validate with
    | error error =>
      simp only [Except.map, Except.ok.injEq, reduceCtorEq, false_iff, not_and]
      rintro rfl
      simp [hvalid]
    | ok _ =>
      simp only [Except.map, Except.ok.injEq, iff_self_and]
      rintro rfl
      exact hvalid

theorem parse_failsAs_config (hread : read text = .ok config) (hvalid : config.validate ≠ .ok ()) :
    FailsAs (parse text) .config := by
  obtain ⟨error, herror, hkind⟩ := validate_failsAs_config hvalid
  exact ⟨error, by rw [parse_of_read hread, herror]; rfl, hkind⟩

theorem ofFile_of_decode {bytes : Bytes} (h : Utf8.decode? bytes = some text) (path : String) :
    ofFile path (.ok bytes) = parse text := by
  simp [ofFile, h]

/-! ## Where they agree -/

/-- On a text, parsing and building agree: nothing that is accepted is then an
invalid argument, and what would be one is refused as a configuration, in a file
as well. -/
structure AgreesOn (text : String) : Prop where
  builds : ∀ config, parse text = .ok config →
    (∀ memory, (∃ ring, EventRing.create memory config.ringCapacity = .ok ring) ∨
      FailsAs (EventRing.create memory config.ringCapacity) .allocationFailure) ∧
    ∀ {σ : Type} (ring : EventRing) (sink : σ),
      (∃ agent, Agent.start config.agent ring sink = .ok agent) ∧
        ∀ refusal, ¬FailsAs (Agent.start config.agent ring sink refusal) .invalidArgument
  refuses : ∀ config, read text = .ok config →
    (∃ memory, FailsAs (EventRing.create memory config.ringCapacity) .invalidArgument) ∨
      (∃ (σ : Type) (ring : EventRing) (sink : σ) (refusal : Option String),
        FailsAs (Agent.start config.agent ring sink refusal) .invalidArgument) ∨
      config.sink.endpoint = "" →
    FailsAs (parse text) .config ∧
      ∀ path bytes, Utf8.decode? bytes = some text → FailsAs (ofFile path (.ok bytes)) .config

/-- They agree on every text but those that are accepted with the largest
capacity a word can hold. -/
theorem agreesOn_iff (text : String) :
    AgreesOn text ↔
      ∀ config, parse text = .ok config → config.ringCapacity.toNat + 1 ≠ UInt64.size := by
  constructor
  · intro h config hparse hlast
    have hrefused : FailsAs (EventRing.create ⟨0, by decide⟩ config.ringCapacity)
        .invalidArgument := by
      rw [EventRing.create_failsAs_invalidArgument_iff]
      exact .inr hlast
    obtain ⟨hfails, -⟩ := h.refuses config (parse_eq_ok_iff.mp hparse).1 (.inl ⟨_, hrefused⟩)
    simp [hparse] at hfails
  · intro h
    constructor
    · intro config hparse
      obtain ⟨hcapacity, hagent, -⟩ := (validate_eq_ok_iff _).mp (parse_eq_ok_iff.mp hparse).2
      refine ⟨fun memory => ?_, fun ring sink => ⟨Agent.start_of_valid hagent ring sink, ?_⟩⟩
      · rcases EventRing.create_cases memory config.ringCapacity with hring | hmemory | hrefused
        · exact .inl hring
        · exact .inr hmemory
        · rw [EventRing.create_failsAs_invalidArgument_iff] at hrefused
          exact absurd hrefused (not_or.mpr ⟨hcapacity, h config hparse⟩)
      · intro refusal
        rw [Agent.start_failsAs_iff, not_not]
        exact hagent
    · intro config hread hunusable
      have hvalid : config.validate ≠ .ok () := by
        intro hvalid
        obtain ⟨hcapacity, hagent, hendpoint⟩ := (validate_eq_ok_iff _).mp hvalid
        rcases hunusable with ⟨memory, hring⟩ | ⟨σ, ring, sink, refusal, hstart⟩ | hempty
        · rw [EventRing.create_failsAs_invalidArgument_iff] at hring
          exact hring.elim hcapacity (h config (parse_eq_ok_iff.mpr ⟨hread, hvalid⟩))
        · exact (Agent.start_failsAs_iff _ _ _ _).mp hstart hagent
        · exact hendpoint hempty
      refine ⟨parse_failsAs_config hread hvalid, fun path bytes hbytes => ?_⟩
      rw [ofFile_of_decode hbytes]
      exact parse_failsAs_config hread hvalid

/-- The largest capacity is accepted by parsing, and the ring refuses it as an
argument whatever memory there is. -/
theorem not_agreesOn_largest_capacity :
    ∃ config, parse "ring_capacity: 18446744073709551615\n" = .ok config ∧
      (∀ memory, FailsAs (EventRing.create memory config.ringCapacity) .invalidArgument) ∧
      ¬AgreesOn "ring_capacity: 18446744073709551615\n" := by
  have hparse : parse "ring_capacity: 18446744073709551615\n" =
      .ok { ringCapacity := 18446744073709551615 } := by cbv
  have hrefused (memory : Memory) :
      FailsAs (EventRing.create memory 18446744073709551615) .invalidArgument := by
    rw [EventRing.create_failsAs_invalidArgument_iff]
    exact .inr rfl
  refine ⟨_, hparse, hrefused, fun h => ?_⟩
  obtain ⟨hfails, -⟩ := h.refuses _ (parse_eq_ok_iff.mp hparse).1
    (.inl ⟨⟨0, by decide⟩, hrefused _⟩)
  simp [hparse] at hfails

end Config

end Telemetry
