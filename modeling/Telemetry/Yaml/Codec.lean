import Telemetry.Yaml.Fault
import Telemetry.Yaml.Value

/-!
# Reading and writing documents

What is asked of a library for documents.  It reads a text as a document, takes the
nodes of the document as texts, numbers and records, and writes a value as a text.
A field of a record is looked up by its name, and fields that nobody looks for are
passed over.
-/

namespace Telemetry.Yaml

/-- A codec reads texts as documents of type `δ`, which have nodes of type `ν`. -/
class Codec (δ : Type) (ν : outParam Type) where
  /-- The only document in a text. -/
  ofText : String → Except Fault δ
  /-- The node that is the whole document, or `none` when nothing is written. -/
  root : δ → Option ν
  text : δ → ν → Except Fault String
  /-- An unsigned integer of at most so much. -/
  number : δ → Nat → ν → Except Fault Nat
  /-- The fields of a record in the order of the text. -/
  fields : δ → ν → Except Fault (List (String × ν))
  /-- The document that holds a value alone. -/
  render : Value → String

namespace Codec

variable {δ ν : Type}

def word64 [Codec δ ν] (document : δ) (node : ν) : Except Fault UInt64 :=
  (number document (UInt64.size - 1) node).map UInt64.ofNat

def word32 [Codec δ ν] (document : δ) (node : ν) : Except Fault UInt32 :=
  (number document (UInt32.size - 1) node).map UInt32.ofNat

/-- Reads the only field with a name, or takes `fallback` when there is none. -/
def field {α : Type} (fields : List (String × ν)) (name : String) (fallback : α)
    (read : ν → Except Fault α) : Except Fault α :=
  match fields.filter (·.1 = name) with
  | [] => .ok fallback
  | [(_, node)] => read node
  | _ => .error (.duplicateField name)

end Codec

end Telemetry.Yaml
