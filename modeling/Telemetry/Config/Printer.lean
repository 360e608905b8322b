import Telemetry.Config
import Telemetry.Yaml.Content

/-!
# Configurations as documents

Every field is written, also those that have their defaults.
-/

namespace Telemetry

open Yaml (Codec Document Value)

def AgentConfig.toValue (config : AgentConfig) : Value :=
  .mapping [
    ("max_drain_per_wake", .number config.maxDrainPerWake.toNat),
    ("thread_name", .text config.threadName)]

def SinkConfig.toValue (config : SinkConfig) : Value :=
  .mapping [
    ("endpoint", .text config.endpoint),
    ("max_datagram_bytes", .number config.maxDatagramBytes.toNat)]

namespace Config

def toValue (config : Config) : Value :=
  .mapping [
    ("ring_capacity", .number config.ringCapacity.toNat),
    ("agent", config.agent.toValue),
    ("sink", config.sink.toValue)]

/-- The text of the document that holds a configuration. -/
def toYaml (config : Config) (δ : Type := Document) {ν : Type} [Codec δ ν] : String :=
  Codec.render δ config.toValue

end Config

end Telemetry
