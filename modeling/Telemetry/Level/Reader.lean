import Telemetry.Level
import Telemetry.Text.Utf8
import Telemetry.Yaml.Content

/-!
# Levels in documents

A level is written as its name or as a tag `!name` on nothing.
-/

namespace Telemetry.Level

open Yaml (Document Node Fault)

def ofNameChecked (name : String) : Except Fault Level :=
  match ofName? name with
  | some level => .ok level
  | none => .error .unknownVariant

/-- The name in a tag that belongs to the document, if it is text. -/
def localName? (tag : Bytes) : Option String :=
  match tag with
  | mark :: name => if mark = UInt8.ofNat '!'.toNat then Utf8.decode? name else none
  | [] => none

def ofNode (document : Document) (node : Node) : Except Fault Level :=
  match document.resolve node with
  | .scalar properties style text =>
    match properties.tag.bind localName? with
    | none => ofNameChecked text
    | some name =>
      if style = .plain && Yaml.Schema.isNull text.toList then ofNameChecked name
      else .error .expectedNothing
  | _ => .error .unknownVariant

def parse (text : String) : Except Fault Level := do
  let document ← Document.ofText text
  match document.root with
  | some node => ofNode document node
  | none => .error .noDocument

end Telemetry.Level
