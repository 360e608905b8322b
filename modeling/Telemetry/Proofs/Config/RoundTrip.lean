import Telemetry.Config.Printer
import Telemetry.Proofs.Config.Documents
import Telemetry.Proofs.Yaml.Nodes

/-!
# Configurations read back

The document that is written for a configuration gives every field, and what it
gives are the values of the configuration: numbers and texts come back as scalars,
whatever the texts look like, and each stands under the name it is looked for.
-/

namespace Telemetry

open Yaml (Codec Document IsName LawfulCodec ReadsBack Value)

/-! ## Configurations that were written -/

/-- Every field of a configuration. -/
def AgentConfig.toGiven (config : AgentConfig) : Given where
  maxDrainPerWake := some config.maxDrainPerWake
  threadName := some config.threadName

def SinkConfig.toGiven (config : SinkConfig) : Given where
  endpoint := some config.endpoint
  maxDatagramBytes := some config.maxDatagramBytes

def Config.toGiven (config : Config) : Given where
  ringCapacity := some config.ringCapacity
  agent := some config.agent.toGiven
  sink := some config.sink.toGiven

section Spelling

variable {δ ν : Type} [Codec δ ν] [LawfulCodec δ ν] {document : δ} {node : ν}

theorem AgentConfig.saidBy_of_spelledBy {config : AgentConfig}
    (h : config.toValue.SpelledBy document node) : config.toGiven.SaidBy document node := by
  obtain ⟨_, hrecord, _, _, rfl, hdrain, _, _, rfl, hname, rfl⟩ := h
  exact ⟨_, hrecord,
    .of_append [] (by simp) (Yaml.isWord64_of_spelledBy hdrain),
    .of_append [_] (by simp) hname⟩

theorem SinkConfig.saidBy_of_spelledBy {config : SinkConfig}
    (h : config.toValue.SpelledBy document node) : config.toGiven.SaidBy document node := by
  obtain ⟨_, hrecord, _, _, rfl, hendpoint, _, _, rfl, hbytes, rfl⟩ := h
  exact ⟨_, hrecord,
    .of_append [] (by simp) hendpoint,
    .of_append [_] (by simp) (Yaml.isWord32_of_spelledBy hbytes)⟩

theorem Config.saidBy_of_spelledBy {config : Config}
    (h : config.toValue.SpelledBy document node) : config.toGiven.SaidBy document node := by
  obtain ⟨_, hrecord, _, _, rfl, hcapacity, _, _, rfl, hagent, _, _, rfl, hsink, rfl⟩ := h
  exact ⟨_, hrecord,
    .of_append [] (by simp) (Yaml.isWord64_of_spelledBy hcapacity),
    .of_append [_] (by simp) (AgentConfig.saidBy_of_spelledBy hagent),
    .of_append [_, _] (by simp) (SinkConfig.saidBy_of_spelledBy hsink)⟩

end Spelling

namespace Config

/-- The names of the fields are names. -/
theorem isName_of_mem : ∀ name ∈ ["ring_capacity", "agent", "sink", "max_drain_per_wake",
    "thread_name", "endpoint", "max_datagram_bytes"], IsName name.toList := by
  intro name hname
  fin_cases hname <;> exact ⟨by decide, by decide⟩

theorem isReadable_toValue (config : Config) : config.toValue.IsReadable := by
  have hword (word : UInt64) : word.toNat < UInt64.size := word.toNat_lt
  have hbytes : config.sink.maxDatagramBytes.toNat < UInt64.size :=
    config.sink.maxDatagramBytes.toNat_lt.trans (by decide)
  simp only [toValue, AgentConfig.toValue, SinkConfig.toValue, Value.IsReadable,
    Value.EntriesReadable, hword, hbytes, ne_eq, reduceCtorEq, not_false_eq_true, true_and,
    and_true]
  and_intros <;> exact isName_of_mem _ (by simp)

section Codecs

variable {δ ν : Type} [Codec δ ν] [LawfulCodec δ ν] [ReadsBack δ ν]

/-- A document that was written says what the configuration is. -/
theorem saidIn_toYaml (config : Config) : config.toGiven.SaidIn δ (config.toYaml δ) := by
  obtain ⟨document, node, hdocument, hroot, hspelled⟩ :=
    ReadsBack.ofText_render (δ := δ) config.isReadable_toValue
  exact .root node hdocument hroot (saidBy_of_spelledBy hspelled)

theorem read_toYaml (config : Config) : read (config.toYaml δ) δ = .ok config :=
  read_of_saidIn config.saidIn_toYaml

end Codecs

/-- Writing a configuration and reading it back changes no field, and parsing it
only validates it.  So it is with every codec that reads back what it writes. -/
theorem parse_toYaml (config : Config) :
    (read config.toYaml = .ok config ∧
      parse config.toYaml = config.validate.map fun _ => config) ∧
    ∀ {δ ν : Type} [Codec δ ν] [LawfulCodec δ ν] [ReadsBack δ ν],
      read (config.toYaml δ) δ = .ok config ∧
        parse (config.toYaml δ) δ = config.validate.map fun _ => config :=
  ⟨⟨config.read_toYaml, parse_of_read config.read_toYaml⟩,
    config.read_toYaml, parse_of_read config.read_toYaml⟩

/-- A name of two lines and an endpoint that looks like a number. -/
theorem parse_awkward_config :
    let config : Config :=
      { agent := { threadName := "two\nlines" }, sink := { endpoint := "0x1F" } }
    config.toYaml =
        "ring_capacity: 1024\nagent:\n  max_drain_per_wake: 50\n  thread_name: |-\n    two\n" ++
          "    lines\nsink:\n  endpoint: '0x1F'\n  max_datagram_bytes: 512\n" ∧
      parse config.toYaml = .ok config := by
  intro config
  obtain ⟨-, hparse⟩ : read config.toYaml Document = .ok config ∧
      parse config.toYaml Document = config.validate.map fun _ => config :=
    (parse_toYaml config).2
  exact ⟨by decide +kernel, hparse.trans (by decide)⟩

end Config

end Telemetry
