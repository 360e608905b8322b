import Telemetry.Text.Hex

/-!
# What can go wrong

Every fallible operation of the pipeline reports an `Error`, which says what
happened and with which numbers.  `Error.kind` collapses it for callers that
only branch on the failure mode, `Error.message` words it for people, and
`Error.isRetryable` separates steady-state conditions (a full queue, a send
that failed) from those that repeating the call cannot mend.
-/

namespace Telemetry

/-- Why an argument was refused. -/
inductive ArgumentFault where
  | unknownLevel (code : UInt8)
  | payloadTooLong (size : Nat)
  | zeroCapacity
  | capacityOverflow
  | frameTooLarge (size : Nat)
  | notEventBatch (messageType : UInt16)
  | zeroDrainLimit
  | unusableThreadName
  | other (reason : String)
  deriving DecidableEq, Repr

/-- Why a sink did not take an event. -/
inductive SendFault where
  | notConnected
  | frameOverLimit (size limit : Nat)
  | refusedByNetwork
  | shortWrite (written size : Nat)
  | injected (attempt : UInt64)
  | other (reason : String)
  deriving DecidableEq, Repr

/-- Why a configuration was refused. -/
inductive ConfigFault where
  | zeroRingCapacity
  | agent (fault : ArgumentFault)
  | emptyEndpoint
  | unreadable (details : String)
  | other (context details : String)
  deriving DecidableEq, Repr

/-- Why a file could not be read as text. -/
inductive FileFault where
  | notFound
  | isDirectory
  | notText
  | other (reason : String)
  deriving DecidableEq, Repr

/-- Why memory could not be reserved. -/
inductive MemoryFault where
  /-- No block has so many bytes. -/
  | overLimit
  /-- There is no such block to be had. -/
  | exhausted
  deriving DecidableEq, Repr

inductive Error where
  | invalidArgument (fault : ArgumentFault)
  | allocationFailure (what : String) (source : Option MemoryFault := none)
  | queueFull (capacity : UInt64)
  | queueEmpty
  | magicMismatch (expected found : UInt32)
  | versionMismatch (expected found : UInt8)
  | headerLengthMismatch (expected found : UInt8)
  | truncated (needed available : Nat)
  | payloadOutOfRange (declared available : Nat)
  | sendFailure (fault : SendFault) (source : Option String)
  | sinkInit (endpoint : String) (source : Option String)
  | workerCreation (what : String) (source : String)
  | config (fault : ConfigFault)
  | configFile (path : String) (fault : FileFault)
  deriving DecidableEq, Repr

/-- The failure mode of an error, without its particulars. -/
inductive ErrorKind where
  | invalidArgument
  | allocationFailure
  | queueFull
  | queueEmpty
  | magicMismatch
  | versionMismatch
  | headerLengthMismatch
  | truncated
  | payloadOutOfRange
  | sendFailure
  | sinkInit
  | workerCreation
  | config
  deriving DecidableEq, Repr

def ArgumentFault.reason : ArgumentFault → String
  | unknownLevel code => s!"unknown event level {code}"
  | payloadTooLong size => s!"payload of {size} bytes exceeds the 128 byte maximum"
  | zeroCapacity => "ring capacity must be non-zero"
  | capacityOverflow => "ring capacity overflows usize"
  | frameTooLarge size => s!"frame payload of {size} bytes is too large"
  | notEventBatch messageType =>
    s!"expected an event batch, found message type {messageType}"
  | zeroDrainLimit => "max_drain_per_wake must be at least 1"
  | unusableThreadName => "thread_name must be non-empty and free of NUL bytes"
  | other reason => reason

def SendFault.reason : SendFault → String
  | notConnected => "UDP sink is not initialized"
  | frameOverLimit size limit =>
    s!"frame of {size} bytes exceeds the {limit} byte datagram limit"
  | refusedByNetwork => "UDP send failed"
  | shortWrite written size => s!"short datagram write: {written} of {size} bytes"
  | injected attempt => s!"injected failure on attempt {attempt}"
  | other reason => reason

/-- The part of the configuration that is at fault. -/
def ConfigFault.context : ConfigFault → String
  | zeroRingCapacity => "ring_capacity"
  | agent _ => "agent"
  | emptyEndpoint => "sink.endpoint"
  | unreadable _ => "TelemetryConfig deserialization"
  | other context _ => context

def ConfigFault.details : ConfigFault → String
  | zeroRingCapacity => "must be at least 1"
  | agent fault => "Invalid argument: " ++ fault.reason
  | emptyEndpoint => "must not be empty"
  | unreadable details => details
  | other _ details => details

def FileFault.reason : FileFault → String
  | notFound => "no such file"
  | isDirectory => "is a directory"
  | notText => "not valid UTF-8"
  | other reason => reason

def MemoryFault.reason : MemoryFault → String
  | overLimit =>
    "memory allocation failed because the computed capacity exceeded the collection's maximum"
  | exhausted => "memory allocation failed because the memory allocator returned an error"

namespace Error

def kind : Error → ErrorKind
  | invalidArgument _ => .invalidArgument
  | allocationFailure _ _ => .allocationFailure
  | queueFull _ => .queueFull
  | queueEmpty => .queueEmpty
  | magicMismatch _ _ => .magicMismatch
  | versionMismatch _ _ => .versionMismatch
  | headerLengthMismatch _ _ => .headerLengthMismatch
  | truncated _ _ => .truncated
  | payloadOutOfRange _ _ => .payloadOutOfRange
  | sendFailure _ _ => .sendFailure
  | sinkInit _ _ => .sinkInit
  | workerCreation _ _ => .workerCreation
  | config _ => .config
  | configFile _ _ => .config

/-- Whether repeating the same call later can succeed. -/
def isRetryable (error : Error) : Bool :=
  match error.kind with
  | .queueFull | .queueEmpty | .sendFailure | .sinkInit | .workerCreation => true
  | _ => false

/-- A 32-bit word as eight hexadecimal digits. -/
def hexWord (word : UInt32) : String :=
  "0x" ++ Hex.encode (bigEndian 4 word.toNat)

def message : Error → String
  | invalidArgument fault => "Invalid argument: " ++ fault.reason
  | allocationFailure what _ => "Allocation failed for " ++ what
  | queueFull capacity => s!"Ring buffer full (capacity {capacity})"
  | queueEmpty => "Ring buffer empty"
  | magicMismatch expected found =>
    "Protocol magic mismatch: expected " ++ hexWord expected ++ ", found " ++ hexWord found
  | versionMismatch expected found =>
    s!"Protocol version mismatch: expected {expected}, found {found}"
  | headerLengthMismatch expected found =>
    s!"Protocol header length mismatch: expected {expected}, found {found}"
  | truncated needed available =>
    s!"Truncated input: need {needed} bytes, have {available}"
  | payloadOutOfRange declared available =>
    s!"Declared payload length {declared} exceeds the {available} bytes available"
  | sendFailure fault _ => "Sink send failed: " ++ fault.reason
  | sinkInit endpoint _ => "Sink initialization failed for endpoint '" ++ endpoint ++ "'"
  | workerCreation what _ => "Failed to create " ++ what
  | config fault => "Configuration error in " ++ fault.context ++ ": " ++ fault.details
  | configFile path _ => "Configuration file error: " ++ path

/-- The wording of the underlying cause, where the system reported one. -/
def source? : Error → Option String
  | allocationFailure _ source => source.map MemoryFault.reason
  | sendFailure _ source => source
  | sinkInit _ source => source
  | workerCreation _ source => some source
  | configFile _ fault => some fault.reason
  | _ => none

/-- What an operator can do about an error, most promising first. -/
def suggestions : Error → List String
  | invalidArgument _ =>
    ["Check capacities and drain limits are non-zero",
      "Keep event payloads within 128 bytes"]
  | allocationFailure _ _ =>
    ["Reduce the ring capacity", "Check available memory on the device"]
  | queueFull _ =>
    ["Notify the agent more often so it drains sooner", "Increase the ring capacity",
      "Reduce the event rate"]
  | queueEmpty => ["Nothing to do; wait for the producer"]
  | magicMismatch _ _ =>
    ["Verify the sender speaks the TEL1 protocol",
      "Check the datagram is not from another service on the same port"]
  | versionMismatch _ _ | headerLengthMismatch _ _ =>
    ["Upgrade sender and receiver to the same protocol version"]
  | truncated _ _ | payloadOutOfRange _ _ =>
    ["Check the datagram size limit on the sender", "Increase the receive buffer size"]
  | sendFailure _ _ =>
    ["Check the destination endpoint is reachable",
      "Lower max_datagram_bytes if datagrams are rejected"]
  | sinkInit _ _ =>
    ["Check the endpoint is a valid host:port",
      "Verify the local network interface is up"]
  | workerCreation _ _ =>
    ["Check process thread limits", "Release unused agents before starting new ones"]
  | config _ => ["Check the YAML syntax", "Compare field names with TelemetryConfig"]
  | configFile _ _ =>
    ["Check the file exists and is readable", "Check file permissions"]

instance : ToString Error where
  toString := message

end Error

end Telemetry
