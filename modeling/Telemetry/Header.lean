import Telemetry.Error

/-!
# Frame headers

Every frame starts with 32 bytes that name the protocol, number the frame and
say how many payload bytes follow:

| offset | width | field           |
|--------|-------|-----------------|
| 0      | 4     | magic, `TEL1`   |
| 4      | 1     | version, 1      |
| 5      | 1     | header length   |
| 6      | 2     | message type    |
| 8      | 4     | sequence number |
| 12     | 8     | time stamp      |
| 20     | 4     | payload length  |
| 24     | 4     | checksum        |
| 28     | 4     | reserved        |

The checksum and the reserved word are carried and not interpreted, and so is a
message type this library has no name for.
-/

namespace Telemetry

inductive MessageType where
  | eventBatch
  | heartbeatBatch
  | metricsBatch
  deriving DecidableEq, Repr

namespace MessageType

def all : List MessageType := [eventBatch, heartbeatBatch, metricsBatch]

def code : MessageType → UInt16
  | eventBatch => 1
  | heartbeatBatch => 2
  | metricsBatch => 3

def ofCode? (code : UInt16) : Option MessageType :=
  all.find? (·.code = code)

def name : MessageType → String
  | eventBatch => "EventBatch"
  | heartbeatBatch => "HeartbeatBatch"
  | metricsBatch => "MetricsBatch"

end MessageType

structure Header where
  magic : UInt32
  version : UInt8
  headerLength : UInt8
  messageType : UInt16
  sequence : UInt32
  timestamp : UInt64
  payloadLength : UInt32
  checksum : UInt32
  reserved : UInt32
  deriving DecidableEq, Repr

namespace Header

/-- The four letters `TEL1`. -/
def protocolMagic : UInt32 := 0x54454C31

def protocolVersion : UInt8 := 1

/-- Bytes in a header. -/
def length : Nat := 32

/-- What the header length field holds. -/
def lengthCode : UInt8 := 32

/-- A header with the protocol's constants and no checksum. -/
def make (messageType : MessageType) (sequence : UInt32) (timestamp : UInt64)
    (payloadLength : UInt32) : Header where
  magic := protocolMagic
  version := protocolVersion
  headerLength := lengthCode
  messageType := messageType.code
  sequence
  timestamp
  payloadLength
  checksum := 0
  reserved := 0

def kind? (header : Header) : Option MessageType :=
  MessageType.ofCode? header.messageType

/-- The protocol's constants are checked in the order of their offsets. -/
def validate (header : Header) : Except Error Unit :=
  if header.magic ≠ protocolMagic then
    .error (.magicMismatch protocolMagic header.magic)
  else if header.version ≠ protocolVersion then
    .error (.versionMismatch protocolVersion header.version)
  else if header.headerLength ≠ lengthCode then
    .error (.headerLengthMismatch lengthCode header.headerLength)
  else
    .ok ()

/-- The bytes of a header, whatever its fields hold. -/
def toBytes (header : Header) : Bytes :=
  bigEndian 4 header.magic.toNat ++ [header.version, header.headerLength] ++
    bigEndian 2 header.messageType.toNat ++ bigEndian 4 header.sequence.toNat ++
    bigEndian 8 header.timestamp.toNat ++ bigEndian 4 header.payloadLength.toNat ++
    bigEndian 4 header.checksum.toNat ++ bigEndian 4 header.reserved.toNat

/-- The fields found in the first 32 bytes. -/
def ofBytes (bytes : Bytes) : Header where
  magic := .ofNat (numberAt bytes 0 4)
  version := .ofNat (numberAt bytes 4 1)
  headerLength := .ofNat (numberAt bytes 5 1)
  messageType := .ofNat (numberAt bytes 6 2)
  sequence := .ofNat (numberAt bytes 8 4)
  timestamp := .ofNat (numberAt bytes 12 8)
  payloadLength := .ofNat (numberAt bytes 20 4)
  checksum := .ofNat (numberAt bytes 24 4)
  reserved := .ofNat (numberAt bytes 28 4)

/-- Only a valid header is written. -/
def encode (header : Header) : Except Error Bytes :=
  match header.validate with
  | .ok () => .ok header.toBytes
  | .error error => .error error

/-- The header at the front of `bytes`, provided the payload it announces is
there too. -/
def decode (bytes : Bytes) : Except Error Header :=
  if bytes.length < length then
    .error (.truncated length bytes.length)
  else
    let header := ofBytes bytes
    match header.validate with
    | .error error => .error error
    | .ok () =>
      if bytes.length - length < header.payloadLength.toNat then
        .error (.payloadOutOfRange header.payloadLength.toNat (bytes.length - length))
      else
        .ok header

end Header

end Telemetry
