import Telemetry.Yaml.Lexer
import Telemetry.Yaml.Node

/-!
# From tokens to a document

The grammar of tokens, read from the front.  Where the grammar allows nothing to
be written the empty scalar is put.  Anchors get numbers as they occur: a new
anchor has the number of distinct names before it.
-/

namespace Telemetry.Yaml

/-- The tokens still to be read and what has been declared so far. -/
structure Source where
  tokens : List Token
  /-- Anchor names and their current numbers. -/
  anchors : List (String × Nat) := []
  /-- Tag handles and what they stand for. -/
  handles : List (String × Bytes) := []

abbrev Reading := StateT Source (Except Fault)

namespace Reading

def peek? : Reading (Option Token) := do return (← get).tokens.head?

def skip : Reading Unit :=
  modify fun source => { source with tokens := source.tokens.tail }

/-- Skips the next token if it is `token`. -/
def skipIf (token : Token) : Reading Bool := do
  if (← peek?) = some token then
    skip
    return true
  else
    return false

/-- Gives the next number to an anchor. -/
def declareAnchor (name : String) : Reading Nat := do
  let source ← get
  let number := source.anchors.length
  let others := source.anchors.filter (·.1 ≠ name)
  set { source with anchors := others ++ [(name, number)] }
  return number

def resolveAlias (name : String) : Reading Node := do
  match (← get).anchors.lookup name with
  | some number => return .alias number
  | none => throw .unknownAnchor

/-- The full tag.  A lone exclamation mark has no handle either. -/
def resolveTag (handle : String) (suffix : Bytes) : Reading Bytes := do
  if handle = "" then
    return suffix
  else
    match (← get).handles.lookup handle with
    | some scope => return scope ++ suffix
    | none => throw .undefinedTagHandle

def tag? : Reading (Option (String × Bytes)) := do
  match ← peek? with
  | some (.tag handle suffix) =>
    skip
    return some (handle, suffix)
  | _ => return none

def anchor? : Reading (Option String) := do
  match ← peek? with
  | some (.anchor name) =>
    skip
    return some name
  | _ => return none

/-- At most one anchor and one tag in either order. -/
def properties : Reading Properties := do
  let before ← anchor?
  let tag ← tag?
  let name ← if before.isNone && tag.isSome then anchor? else pure before
  let tag ← tag.mapM fun (handle, suffix) => resolveTag handle suffix
  let anchor ← name.mapM declareAnchor
  return { tag, anchor }

/-- Whether one of `ends` comes next or nothing at all. -/
def atEnd (ends : List Token) : Reading Bool := do
  match ← peek? with
  | some token => return ends.contains token
  | none => return false

mutual

/-- One node.  `inBlock` allows block collections and `indentless` a block
sequence that is not indented.  `fuel` bounds the depth of the reading and never
runs out when it starts from the number of tokens. -/
def node (inBlock indentless : Bool) : Nat → Reading Node
  | 0 => throw .unbounded
  | fuel + 1 => do
    match ← peek? with
    | some (.alias name) =>
      skip
      resolveAlias name
    | _ =>
      let properties ← properties
      match ← peek? with
      | some (.scalar style text) =>
        skip
        return .scalar properties style text
      | some .flowSequenceStart =>
        skip
        return .sequence properties (← flowItems true fuel)
      | some .flowMappingStart =>
        skip
        return .mapping properties (← flowEntries true fuel)
      | some .blockSequenceStart =>
        if inBlock then
          skip
          return .sequence properties (← blockItems fuel)
        else
          bare properties
      | some .blockMappingStart =>
        if inBlock then
          skip
          return .mapping properties (← blockEntries fuel)
        else
          bare properties
      | some .blockEntry =>
        if indentless then return .sequence properties (← indentlessItems fuel)
        else bare properties
      | _ => bare properties

/-- Properties without content stand for an empty scalar. -/
def bare (properties : Properties) : Reading Node := do
  if properties.tag.isSome || properties.anchor.isSome then
    return .scalar properties .plain ""
  else
    throw .expectedNode

/-- A node, or nothing in front of one of `ends`. -/
def optionalNode (inBlock indentless : Bool) (ends : List Token) : Nat → Reading Node
  | 0 => throw .unbounded
  | fuel + 1 => do
    if ← atEnd ends then return .nothing
    else node inBlock indentless fuel

/-- The items of a block sequence up to its end. -/
def blockItems : Nat → Reading (List Node)
  | 0 => throw .unbounded
  | fuel + 1 => do
    if ← skipIf .blockEntry then
      let item ← optionalNode true false [.blockEntry, .blockEnd] fuel
      return item :: (← blockItems fuel)
    else if ← skipIf .blockEnd then
      return []
    else
      throw .expectedEntry

/-- The items of a sequence whose end no token marks. -/
def indentlessItems : Nat → Reading (List Node)
  | 0 => throw .unbounded
  | fuel + 1 => do
    if ← skipIf .blockEntry then
      let item ← optionalNode true false [.blockEntry, .key, .value, .blockEnd] fuel
      return item :: (← indentlessItems fuel)
    else
      return []

/-- The entries of a block mapping up to its end. -/
def blockEntries : Nat → Reading (List (Node × Node))
  | 0 => throw .unbounded
  | fuel + 1 => do
    if ← skipIf .key then
      let key ← optionalNode true true [.key, .value, .blockEnd] fuel
      let value ←
        if ← skipIf .value then optionalNode true true [.key, .value, .blockEnd] fuel
        else pure .nothing
      return (key, value) :: (← blockEntries fuel)
    else if ← skipIf .blockEnd then
      return []
    else
      throw .expectedKey

/-- The items of a flow sequence up to its end.  An item with a key is a mapping
of one entry.  An explicit key may be missing; the token in its place is passed
over. -/
def flowItems (first : Bool) : Nat → Reading (List Node)
  | 0 => throw .unbounded
  | fuel + 1 => do
    if ← skipIf .flowSequenceEnd then
      return []
    else
      if !first then
        unless ← skipIf .flowEntry do throw .expectedFlowSeparator
      if ← skipIf .key then
        let missing ← atEnd [.value, .flowEntry, .flowSequenceEnd]
        let key ←
          if missing then do
            skip
            pure .nothing
          else
            node false false fuel
        let value ←
          if ← skipIf .value then optionalNode false false [.flowEntry, .flowSequenceEnd] fuel
          else pure .nothing
        return .mapping {} [(key, value)] :: (← flowItems false fuel)
      else if ← skipIf .flowSequenceEnd then
        return []
      else
        let item ← node false false fuel
        return item :: (← flowItems false fuel)

/-- The entries of a flow mapping up to its end.  An entry without a key token is
a key with nothing for its value. -/
def flowEntries (first : Bool) : Nat → Reading (List (Node × Node))
  | 0 => throw .unbounded
  | fuel + 1 => do
    if ← skipIf .flowMappingEnd then
      return []
    else
      if !first then
        unless ← skipIf .flowEntry do throw .expectedFlowSeparator
      if ← skipIf .key then
        let key ← optionalNode false false [.value, .flowEntry, .flowMappingEnd] fuel
        let value ←
          if ← skipIf .value then optionalNode false false [.flowEntry, .flowMappingEnd] fuel
          else pure .nothing
        return (key, value) :: (← flowEntries false fuel)
      else if ← skipIf .flowMappingEnd then
        return []
      else
        let key ← node false false fuel
        return (key, .nothing) :: (← flowEntries false fuel)

end

/-- The handles that need no declaration. -/
def standardHandles : List (String × Bytes) :=
  [("!", asciiBytes ['!']), ("!!", asciiBytes "tag:yaml.org,2002:".toList)]

/-- Reads the directives in front of a document. -/
def directives : Nat → Bool → List (String × Bytes) → Reading (List (String × Bytes))
  | 0, _, _ => throw .unbounded
  | fuel + 1, versionSeen, handles => do
    match ← peek? with
    | some (.version major minor) =>
      if versionSeen then throw .duplicateDirective
      if major ≠ 1 || minor ≠ 1 && minor ≠ 2 then throw .unsupportedVersion
      skip
      directives fuel true handles
    | some (.tagHandle handle scope) =>
      if (handles.lookup handle).isSome then throw .duplicateDirective
      skip
      directives fuel versionSeen (handles ++ [(handle, scope)])
    | _ => return handles ++ standardHandles

/-- Skips markers that end a document. -/
def documentEnds : Nat → Reading Unit
  | 0 => throw .unbounded
  | fuel + 1 => do
    if ← skipIf .documentEnd then documentEnds fuel

/-- The document that the tokens spell, which must be the only one.  Without
directives its start need not be marked. -/
def document (fuel : Nat) : Reading Document := do
  if (← peek?).isNone then
    return { root := none }
  let bare := match ← peek? with
    | some (.version _ _) | some (.tagHandle _ _) | some .documentStart => false
    | _ => true
  let handles ← directives (fuel + 1) false []
  modify fun source => { source with handles }
  let root ←
    if bare then
      node true false fuel
    else do
      unless ← skipIf .documentStart do throw .expectedDocumentStart
      match ← peek? with
      | none | some .documentStart | some .documentEnd => pure .nothing
      | some (.version _ _) | some (.tagHandle _ _) => pure .nothing
      | _ => node true false fuel
  documentEnds (fuel + 1)
  if (← peek?).isSome then throw .severalDocuments
  return { root := some root }

end Reading

/-- The depth that reading so many tokens can reach. -/
def Reading.enough (tokens : List Token) : Nat := 3 * tokens.length + 3

/-- The only document in a text. -/
def Document.ofText (text : String) : Except Fault Document := do
  let tokens ← Token.ofText text.toList
  let (document, _) ← (Reading.document (Reading.enough tokens)).run { tokens }
  return document

end Telemetry.Yaml
