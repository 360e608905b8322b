import Telemetry.Error

/-!
# Pipeline configuration

A configuration sizes the ring, paces the agent and names the collector.  Every
field has a default.  `validate` looks at the parts in a fixed order and reports
the first that is unusable.
-/

namespace Telemetry

/-- Settings of the agent that drains the ring. -/
structure AgentConfig where
  /-- Events forwarded per batch before the worker looks at its stop flag. -/
  maxDrainPerWake : UInt64 := 50
  threadName : String := "telemetry-agent"
  deriving DecidableEq, Repr

/-- Settings of the sink that events go to. -/
structure SinkConfig where
  /-- `host:port` of the collector. -/
  endpoint : String := "127.0.0.1:9000"
  /-- Largest datagram to send; 0 selects the default. -/
  maxDatagramBytes : UInt32 := 512
  deriving DecidableEq, Repr

structure Config where
  ringCapacity : UInt64 := 1024
  agent : AgentConfig := {}
  sink : SinkConfig := {}
  deriving DecidableEq, Repr

namespace AgentConfig

def validate (config : AgentConfig) : Except ArgumentFault Unit :=
  if config.maxDrainPerWake = 0 then
    .error .zeroDrainLimit
  else if config.threadName = "" ∨ '\x00' ∈ config.threadName.toList then
    .error .unusableThreadName
  else
    .ok ()

theorem maxDrainPerWake_pos {config : AgentConfig} (h : config.validate = .ok ()) :
    0 < config.maxDrainPerWake.toNat := by
  unfold validate at h
  split at h
  · cases h
  · next hne =>
    have : config.maxDrainPerWake.toNat ≠ 0 := fun heq => hne (UInt64.toNat_inj.mp heq)
    omega

end AgentConfig

namespace SinkConfig

/-- The datagram limit where none is configured. -/
def defaultDatagramLimit : UInt32 := 512

/-- No limit is larger, so that datagrams stay below a common path MTU. -/
def maxDatagramLimit : UInt32 := 1200

/-- The limit that applies: the default for 0, and never over the maximum. -/
def datagramLimit (config : SinkConfig) : UInt32 :=
  if config.maxDatagramBytes = 0 then defaultDatagramLimit
  else if config.maxDatagramBytes ≤ maxDatagramLimit then config.maxDatagramBytes
  else maxDatagramLimit

/-- What the setting amounts to: the default where there is none, and never more than the
maximum. -/
theorem toNat_datagramLimit (config : SinkConfig) :
    config.datagramLimit.toNat =
      if config.maxDatagramBytes = 0 then 512 else min config.maxDatagramBytes.toNat 1200 := by
  have hmax : maxDatagramLimit.toNat = 1200 := rfl
  rw [datagramLimit]
  split
  · rfl
  · split
    · next hle =>
      rw [UInt32.le_iff_toNat_le, hmax] at hle
      exact (Nat.min_eq_left hle).symm
    · next hlt =>
      rw [UInt32.le_iff_toNat_le, hmax] at hlt
      exact (Nat.min_eq_right (Nat.le_of_not_le hlt)).symm

end SinkConfig

/-- The ring is checked first, then the agent, then the sink. -/
def Config.validate (config : Config) : Except Error Unit :=
  if config.ringCapacity = 0 then
    .error (.config .zeroRingCapacity)
  else
    match config.agent.validate with
    | .error fault => .error (.config (.agent fault))
    | .ok () =>
      if config.sink.endpoint = "" then .error (.config .emptyEndpoint) else .ok ()

end Telemetry
