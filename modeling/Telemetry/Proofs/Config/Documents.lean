import Telemetry.Proofs.Config.Validation
import Telemetry.Proofs.Yaml.Records

/-!
# What documents say about configurations

A document gives some of the fields of a configuration, in any order and among
fields of other names, and leaves the rest open.  Reading completes what is given
by the defaults, so only that counts and not how the document says it.  This is so
for every lawful codec.
-/

namespace Telemetry

open Yaml (Codec Document Gives IsWord32 IsWord64 LawfulCodec)
open Yaml.LawfulCodec (HasFields IsText)

variable {δ ν : Type} [Codec δ ν] [LawfulCodec δ ν]

/-! ## What is given of a configuration -/

/-- Settings of an agent, some of them left open. -/
structure AgentConfig.Given where
  maxDrainPerWake : Option UInt64 := none
  threadName : Option String := none

/-- Settings of a sink, some of them left open. -/
structure SinkConfig.Given where
  endpoint : Option String := none
  maxDatagramBytes : Option UInt32 := none

/-- A configuration of which fields and whole sections may be left open. -/
structure Config.Given where
  ringCapacity : Option UInt64 := none
  agent : Option AgentConfig.Given := none
  sink : Option SinkConfig.Given := none

namespace AgentConfig.Given

/-- What is open has its default. -/
def completed (given : Given) : AgentConfig :=
  let base : AgentConfig := {}
  { maxDrainPerWake := given.maxDrainPerWake.getD base.maxDrainPerWake
    threadName := given.threadName.getD base.threadName }

/-- The node says what is given and no more. -/
def SaidBy (document : δ) (node : ν) (given : Given) : Prop :=
  ∃ fields, HasFields document node fields ∧
    Gives (IsWord64 document) "max_drain_per_wake" fields given.maxDrainPerWake ∧
    Gives (IsText document) "thread_name" fields given.threadName

end AgentConfig.Given

namespace SinkConfig.Given

def completed (given : Given) : SinkConfig :=
  let base : SinkConfig := {}
  { endpoint := given.endpoint.getD base.endpoint
    maxDatagramBytes := given.maxDatagramBytes.getD base.maxDatagramBytes }

def SaidBy (document : δ) (node : ν) (given : Given) : Prop :=
  ∃ fields, HasFields document node fields ∧
    Gives (IsText document) "endpoint" fields given.endpoint ∧
    Gives (IsWord32 document) "max_datagram_bytes" fields given.maxDatagramBytes

end SinkConfig.Given

namespace Config.Given

def completed (given : Given) : Config :=
  let base : Config := {}
  { ringCapacity := given.ringCapacity.getD base.ringCapacity
    agent := (given.agent.map (·.completed)).getD base.agent
    sink := (given.sink.map (·.completed)).getD base.sink }

def SaidBy (document : δ) (node : ν) (given : Given) : Prop :=
  ∃ fields, HasFields document node fields ∧
    Gives (IsWord64 document) "ring_capacity" fields given.ringCapacity ∧
    Gives (AgentConfig.Given.SaidBy document) "agent" fields given.agent ∧
    Gives (SinkConfig.Given.SaidBy document) "sink" fields given.sink

variable (δ) in
/-- The text is a document that says what is given.  An empty one says nothing. -/
inductive SaidIn (text : String) : Given → Prop where
  | root {document : δ} (root : ν) {given : Given}
      (hdocument : Codec.ofText text = .ok document) (hroot : Codec.root document = some root)
      (hsaid : SaidBy document root given) : SaidIn text given
  | nothing {document : δ} (hdocument : Codec.ofText text = .ok document)
      (hroot : Codec.root document = none) : SaidIn text {}

end Config.Given

/-! ## Reading -/

section Reading

variable {document : δ} {node : ν}

theorem AgentConfig.ofNode_eq_ok_iff {config : AgentConfig} :
    ofNode document node = .ok config ↔
      ∃ given : Given, given.SaidBy document node ∧ given.completed = config := by
  simp only [ofNode, Yaml.bind_eq_ok_iff, LawfulCodec.fields_eq_ok_iff,
    Yaml.plain_field_eq_ok_iff Yaml.word64_eq_ok_iff,
    Yaml.plain_field_eq_ok_iff LawfulCodec.text_eq_ok_iff]
  constructor
  · rintro ⟨fields, hrecord, _, ⟨drain, hdrain, rfl⟩, _, ⟨name, hname, rfl⟩, ⟨⟩⟩
    exact ⟨⟨drain, name⟩, ⟨fields, hrecord, hdrain, hname⟩, rfl⟩
  · rintro ⟨given, ⟨fields, hrecord, hdrain, hname⟩, rfl⟩
    exact ⟨fields, hrecord, _, ⟨_, hdrain, rfl⟩, _, ⟨_, hname, rfl⟩, rfl⟩

theorem SinkConfig.ofNode_eq_ok_iff {config : SinkConfig} :
    ofNode document node = .ok config ↔
      ∃ given : Given, given.SaidBy document node ∧ given.completed = config := by
  simp only [ofNode, Yaml.bind_eq_ok_iff, LawfulCodec.fields_eq_ok_iff,
    Yaml.plain_field_eq_ok_iff Yaml.word32_eq_ok_iff,
    Yaml.plain_field_eq_ok_iff LawfulCodec.text_eq_ok_iff]
  constructor
  · rintro ⟨fields, hrecord, _, ⟨endpoint, hendpoint, rfl⟩, _, ⟨bytes, hbytes, rfl⟩, ⟨⟩⟩
    exact ⟨⟨endpoint, bytes⟩, ⟨fields, hrecord, hendpoint, hbytes⟩, rfl⟩
  · rintro ⟨given, ⟨fields, hrecord, hendpoint, hbytes⟩, rfl⟩
    exact ⟨fields, hrecord, _, ⟨_, hendpoint, rfl⟩, _, ⟨_, hbytes, rfl⟩, rfl⟩

namespace Config

variable {config : Config} {given : Given} {text : String}

theorem ofNode_eq_ok_iff :
    ofNode document node = .ok config ↔
      ∃ given : Given, given.SaidBy document node ∧ given.completed = config := by
  simp only [ofNode, Yaml.bind_eq_ok_iff, LawfulCodec.fields_eq_ok_iff,
    Yaml.plain_field_eq_ok_iff Yaml.word64_eq_ok_iff,
    Yaml.field_eq_ok_iff AgentConfig.Given.completed AgentConfig.ofNode_eq_ok_iff,
    Yaml.field_eq_ok_iff SinkConfig.Given.completed SinkConfig.ofNode_eq_ok_iff]
  constructor
  · rintro ⟨fields, hrecord, _, ⟨capacity, hcapacity, rfl⟩, _, ⟨agent, hagent, rfl⟩, _,
      ⟨sink, hsink, rfl⟩, ⟨⟩⟩
    exact ⟨⟨capacity, agent, sink⟩, ⟨fields, hrecord, hcapacity, hagent, hsink⟩, rfl⟩
  · rintro ⟨given, ⟨fields, hrecord, hcapacity, hagent, hsink⟩, rfl⟩
    exact ⟨fields, hrecord, _, ⟨_, hcapacity, rfl⟩, _, ⟨_, hagent, rfl⟩, _, ⟨_, hsink, rfl⟩, rfl⟩

/-- A text is read exactly where it says something about a configuration, and then
as what it says, completed. -/
theorem read_eq_ok_iff :
    read text δ = .ok config ↔ ∃ given : Given, given.SaidIn δ text ∧ given.completed = config := by
  simp only [read, Yaml.bind_eq_ok_iff, ofDocument]
  constructor
  · rintro ⟨document, hdocument, h⟩
    split at h
    · next root hroot =>
      obtain ⟨given, hsaid, hcompleted⟩ := ofNode_eq_ok_iff.mp h
      exact ⟨given, .root root hdocument hroot hsaid, hcompleted⟩
    · next hroot =>
      cases h
      exact ⟨{}, .nothing hdocument hroot, rfl⟩
  · rintro ⟨given, hsaid, rfl⟩
    cases hsaid with
    | @root document root given hdocument hroot hsaid =>
      refine ⟨document, hdocument, ?_⟩
      simp only [hroot]
      exact ofNode_eq_ok_iff.mpr ⟨given, hsaid, rfl⟩
    | @nothing document hdocument hroot => exact ⟨document, hdocument, by simp only [hroot]; rfl⟩

theorem read_of_saidIn (h : given.SaidIn δ text) : read text δ = .ok given.completed :=
  read_eq_ok_iff.mpr ⟨given, h, rfl⟩

/-- A document is parsed as what it says, completed and validated, and any other
document that comes to the same configuration is parsed alike. -/
theorem parse_eq_validate_completed (h : given.SaidIn δ text) :
    parse text δ = (given.completed.validate.map fun _ => given.completed) ∧
      ∀ (other : String) (given' : Given), given'.SaidIn δ other →
        given'.completed = given.completed → parse other δ = parse text δ := by
  refine ⟨parse_of_read (read_of_saidIn h), fun other given' hother hsame => ?_⟩
  rw [parse_of_read (read_of_saidIn hother), parse_of_read (read_of_saidIn h), hsame]

/-- Other names, another order and a default that is written out. -/
theorem parse_rearranged_document :
    parse "sink:\n  ports: [1]\n  endpoint: a:1\nowner: x\nring_capacity: 0x40\n" =
        .ok { ringCapacity := 64, sink := { endpoint := "a:1" } } ∧
      parse "ring_capacity: 64\nsink:\n  endpoint: a:1\n  max_datagram_bytes: 512\n" =
        parse "sink:\n  ports: [1]\n  endpoint: a:1\nowner: x\nring_capacity: 0x40\n" := by
  have hscrambled : Given.SaidIn Document
      "sink:\n  ports: [1]\n  endpoint: a:1\nowner: x\nring_capacity: 0x40\n"
      { ringCapacity := some 64, sink := some { endpoint := some "a:1" } } := by
    refine .root (.record [
        ("sink", .record [
          ("ports", .sequence {} [.scalar {} .plain "1"]),
          ("endpoint", .scalar {} .plain "a:1")]),
        ("owner", .scalar {} .plain "x"),
        ("ring_capacity", .scalar {} .plain "0x40")])
      (by cbv) rfl ⟨_, Document.hasFields_record _ _, ?_, .nothing (by simp), ?_⟩
    · exact .of_append [_, _] (by simp) ⟨_, _, _, rfl, .inl rfl, by cbv⟩
    · exact .of_append [] (by simp) ⟨_, Document.hasFields_record _ _,
        .of_append [_] (by simp) ⟨_, _, rfl⟩, .nothing (by simp)⟩
  have hplain : Given.SaidIn Document
      "ring_capacity: 64\nsink:\n  endpoint: a:1\n  max_datagram_bytes: 512\n"
      { ringCapacity := some 64
        sink := some { endpoint := some "a:1", maxDatagramBytes := some 512 } } := by
    refine .root (.record [
        ("ring_capacity", .scalar {} .plain "64"),
        ("sink", .record [
          ("endpoint", .scalar {} .plain "a:1"),
          ("max_datagram_bytes", .scalar {} .plain "512")])])
      (by cbv) rfl ⟨_, Document.hasFields_record _ _, ?_, .nothing (by simp), ?_⟩
    · exact .of_append [] (by simp) ⟨_, _, _, rfl, .inl rfl, by cbv⟩
    · exact .of_append [_] (by simp) ⟨_, Document.hasFields_record _ _,
        .of_append [] (by simp) ⟨_, _, rfl⟩,
        .of_append [_] (by simp) ⟨_, _, _, rfl, .inl rfl, by cbv⟩⟩
  obtain ⟨hparse, hsame⟩ := parse_eq_validate_completed hscrambled
  exact ⟨hparse.trans (by decide), hsame _ _ hplain (by decide)⟩

end Config

end Reading

end Telemetry
