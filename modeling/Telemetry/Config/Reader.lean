import Telemetry.Config
import Telemetry.Text.Utf8
import Telemetry.Yaml.Content

/-!
# Configurations in documents

A configuration is a record with the sections `agent` and `sink`.  Fields and
sections that are missing have their defaults and unknown ones are ignored.
Reading ends with the validation of what was read.  Any codec can bring the
documents, and `Document` does where none is named.
-/

namespace Telemetry

open Yaml (Codec Document Fault)

variable {δ ν : Type} [Codec δ ν]

def AgentConfig.ofNode (document : δ) (node : ν) : Except Fault AgentConfig := do
  let fields ← Codec.fields document node
  let base : AgentConfig := {}
  let maxDrainPerWake ←
    Codec.field fields "max_drain_per_wake" base.maxDrainPerWake (Codec.word64 document)
  let threadName ←
    Codec.field fields "thread_name" base.threadName (Codec.text document)
  return { maxDrainPerWake, threadName }

def SinkConfig.ofNode (document : δ) (node : ν) : Except Fault SinkConfig := do
  let fields ← Codec.fields document node
  let base : SinkConfig := {}
  let endpoint ← Codec.field fields "endpoint" base.endpoint (Codec.text document)
  let maxDatagramBytes ←
    Codec.field fields "max_datagram_bytes" base.maxDatagramBytes (Codec.word32 document)
  return { endpoint, maxDatagramBytes }

namespace Config

def ofNode (document : δ) (node : ν) : Except Fault Config := do
  let fields ← Codec.fields document node
  let base : Config := {}
  let ringCapacity ←
    Codec.field fields "ring_capacity" base.ringCapacity (Codec.word64 document)
  let agent ← Codec.field fields "agent" base.agent (AgentConfig.ofNode document)
  let sink ← Codec.field fields "sink" base.sink (SinkConfig.ofNode document)
  return { ringCapacity, agent, sink }

/-- The configuration in a document.  An empty document asks for the defaults. -/
def ofDocument (document : δ) : Except Fault Config :=
  match Codec.root document with
  | some node => ofNode document node
  | none => .ok {}

/-- Reads a text without validating the result. -/
def read (text : String) (δ : Type := Document) {ν : Type} [Codec δ ν] : Except Fault Config := do
  let document : δ ← Codec.ofText text
  ofDocument document

/-- Reads and validates a text. -/
def parse (text : String) (δ : Type := Document) {ν : Type} [Codec δ ν] : Except Error Config :=
  match read text δ with
  | .error fault => .error (.config (.unreadable fault.message))
  | .ok config => do
    config.validate
    return config

/-- The configuration in a file, given what reading the file at `path` brought. -/
def ofFile (path : String) (content : Except FileFault Bytes) : Except Error Config :=
  match content with
  | .error fault => .error (.configFile path fault)
  | .ok bytes =>
    match Utf8.decode? bytes with
    | some text => parse text
    | none => .error (.configFile path .notText)

end Config

end Telemetry
