import Telemetry.Yaml.Codec
import Telemetry.Yaml.Document
import Telemetry.Yaml.Schema

/-!
# What a reader takes from a document

Text, numbers and the fields of a record.  Aliases are followed, and tags other than
that of integers say nothing.  Together with the writer of values this is a codec.
-/

namespace Telemetry.Yaml.Document

/-- The text of a scalar of any look. -/
def text (document : Document) (node : Node) : Except Fault String :=
  match document.resolve node with
  | .scalar _ _ text => .ok text
  | _ => .error .expectedText

/-- An unsigned integer of at most `limit`, which must be written plain unless a
literal block is tagged as an integer. -/
def number (document : Document) (limit : Nat) (node : Node) : Except Fault Nat :=
  match document.resolve node with
  | .scalar properties style text =>
    if style = .plain || style = .literal && properties.tag = some Schema.integerTag then
      match Schema.unsigned? limit text.toList with
      | some value => .ok value
      | none => .error .expectedNumber
    else
      .error .expectedNumber
  | _ => .error .expectedNumber

/-- The fields of a record in the order of the text.  Where nothing is written
there are none. -/
def fields (document : Document) (node : Node) : Except Fault (List (String × Node)) :=
  match document.resolve node with
  | .mapping _ entries => entries.mapM fun (key, value) => do
    return (← document.text key, value)
  | .scalar _ .plain "" => .ok []
  | _ => .error .expectedMapping

instance : Codec Document Node where
  ofText := ofText
  root := root
  text := text
  number := number
  fields := fields
  render := Value.render

end Telemetry.Yaml.Document
