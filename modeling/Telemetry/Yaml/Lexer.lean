import Telemetry.Yaml.Token

/-!
# From text to tokens

Block structure follows from columns: a deeper column opens a collection and a
shallower one closes those that are deeper.  That a scalar or a collection was a
key shows only at the colon behind it, so the lexer keeps one candidate for each
open flow level and inserts the key token in front of it when the colon comes.
A candidate lapses at the end of its line or after 1024 octets; one that stands
where only a key can stand must not lapse.
-/

namespace Telemetry.Yaml

/-- A node that may turn out to be a key. -/
structure Candidate where
  /-- How many tokens come before it. -/
  index : Nat
  mark : Mark
  /-- Whether nothing but a key can stand there. -/
  required : Bool
  deriving DecidableEq, Repr

structure Lexer where
  cursor : Cursor
  tokens : Array Token := #[]
  /-- One more than the column of the innermost block collection; 0 outside
  all of them. -/
  margin : Nat := 0
  /-- The margins of the collections around it, innermost first. -/
  outerMargins : List Nat := []
  candidate : Option Candidate := none
  /-- The candidates of the flow levels around the current one, innermost
  first. -/
  outerCandidates : List (Option Candidate) := []
  /-- Whether a key may begin here without an indicator. -/
  keyAllowed : Bool := true

namespace Lexer

/-- The longest a key without indicator can be, in octets. -/
def maxKeyLength : Nat := 1024

def inFlow (lexer : Lexer) : Bool := !lexer.outerCandidates.isEmpty

def column (lexer : Lexer) : Nat := lexer.cursor.mark.column

def emit (lexer : Lexer) (token : Token) : Lexer :=
  { lexer with tokens := lexer.tokens.push token }

/-- Emits an indicator of `width` characters. -/
def emitIndicator (lexer : Lexer) (token : Token) (width : Nat) : Lexer :=
  { lexer with cursor := Nat.repeat Cursor.next width lexer.cursor }.emit token

/-- The candidate of the current level turned out to be no key. -/
def dropCandidate (lexer : Lexer) : Except Fault Lexer :=
  match lexer.candidate with
  | some candidate =>
    if candidate.required then .error .missingColon
    else .ok { lexer with candidate := none }
  | none => .ok lexer

/-- What begins here may be a key. -/
def offerCandidate (lexer : Lexer) : Except Fault Lexer := do
  if lexer.keyAllowed then
    let lexer ← lexer.dropCandidate
    return { lexer with candidate := some {
      index := lexer.tokens.size
      mark := lexer.cursor.mark
      required := !lexer.inFlow && lexer.margin = lexer.column + 1 } }
  else
    return lexer

/-- A candidate whose colon can still come at `mark`. -/
def keepCandidate (mark : Mark) : Option Candidate → Except Fault (Option Candidate)
  | none => .ok none
  | some candidate =>
    if candidate.mark.line < mark.line || candidate.mark.index + maxKeyLength < mark.index then
      if candidate.required then .error .missingColon else .ok none
    else
      .ok (some candidate)

/-- Lets candidates lapse. -/
def expireCandidates (lexer : Lexer) : Except Fault Lexer := do
  let mark := lexer.cursor.mark
  return { lexer with
    candidate := ← keepCandidate mark lexer.candidate
    outerCandidates := ← lexer.outerCandidates.mapM (keepCandidate mark) }

/-- Opens a block collection in `column`, unless the innermost one is there
already.  Its token goes to position `index`. -/
def openBlock (lexer : Lexer) (column index : Nat) (token : Token) : Lexer :=
  if !lexer.inFlow && lexer.margin ≤ column then
    { lexer with
      tokens := lexer.tokens.insertIdxIfInBounds index token
      margin := column + 1
      outerMargins := lexer.margin :: lexer.outerMargins }
  else
    lexer

/-- Opens a block collection right here. -/
def openBlockHere (lexer : Lexer) (token : Token) : Lexer :=
  lexer.openBlock lexer.column lexer.tokens.size token

/-- Closes the block collections beyond `margin`. -/
def closeBlocksTo (margin : Nat) : Nat → List Nat → Array Token → Nat × List Nat × Array Token
  | current, [], tokens => (current, [], tokens)
  | current, outer :: others, tokens =>
    if current ≤ margin then (current, outer :: others, tokens)
    else closeBlocksTo margin outer others (tokens.push .blockEnd)

def closeBlocks (lexer : Lexer) (margin : Nat) : Lexer :=
  if lexer.inFlow then
    lexer
  else
    let (margin, outerMargins, tokens) :=
      closeBlocksTo margin lexer.margin lexer.outerMargins lexer.tokens
    { lexer with margin, outerMargins, tokens }

/-- White space and comments up to the next token.  Outside flow collections a
line break makes room for a key.  Tabs count as white space only where no key
can begin. -/
def skipSpace (inFlow : Bool) : List Char → Mark → Bool → Bool → Cursor × Bool
  | [], mark, keyAllowed, _ => (⟨[], mark⟩, keyAllowed)
  | c :: rest, mark, keyAllowed, inComment =>
    if isBreak c then
      skipSpace inFlow rest (mark.after c) (keyAllowed || !inFlow) false
    else if inComment || c = '#' then
      skipSpace inFlow rest (mark.after c) keyAllowed true
    else if c = ' ' || c = '\t' && (inFlow || !keyAllowed)
        || c = byteOrderMark && mark.column = 0 then
      skipSpace inFlow rest (mark.after c) keyAllowed false
    else
      (⟨c :: rest, mark⟩, keyAllowed)

/-- Moves to the next token and settles what its place decides. -/
def advance (lexer : Lexer) : Except Fault Lexer := do
  let (cursor, keyAllowed) :=
    skipSpace lexer.inFlow lexer.cursor.rest lexer.cursor.mark lexer.keyAllowed false
  let lexer ← { lexer with cursor, keyAllowed }.expireCandidates
  return lexer.closeBlocks (cursor.mark.column + 1)

/-- Ends all block collections, as a document boundary does. -/
def endBlocks (lexer : Lexer) : Except Fault Lexer := do
  let lexer ← (lexer.closeBlocks 0).dropCandidate
  return { lexer with keyAllowed := false }

def directive (lexer : Lexer) : Except Fault Lexer := do
  let lexer ← lexer.endBlocks
  let (token, cursor) ← Token.scanDirective lexer.cursor
  return { lexer with cursor }.emit token

def documentMarker (lexer : Lexer) (token : Token) : Except Fault Lexer := do
  return (← lexer.endBlocks).emitIndicator token 3

def openFlow (lexer : Lexer) (token : Token) : Except Fault Lexer := do
  let lexer ← lexer.offerCandidate
  return { lexer with
    candidate := none
    outerCandidates := lexer.candidate :: lexer.outerCandidates
    keyAllowed := true }.emitIndicator token 1

def closeFlow (lexer : Lexer) (token : Token) : Except Fault Lexer := do
  let lexer ← lexer.dropCandidate
  let lexer := match lexer.outerCandidates with
    | candidate :: outerCandidates => { lexer with candidate, outerCandidates }
    | [] => lexer
  return { lexer with keyAllowed := false }.emitIndicator token 1

def flowEntry (lexer : Lexer) : Except Fault Lexer := do
  let lexer ← lexer.dropCandidate
  return { lexer with keyAllowed := true }.emitIndicator .flowEntry 1

def blockEntry (lexer : Lexer) : Except Fault Lexer := do
  if !lexer.inFlow && !lexer.keyAllowed then throw .misplacedEntry
  let lexer ← (lexer.openBlockHere .blockSequenceStart).dropCandidate
  return { lexer with keyAllowed := true }.emitIndicator .blockEntry 1

def key (lexer : Lexer) : Except Fault Lexer := do
  if !lexer.inFlow && !lexer.keyAllowed then throw .misplacedKey
  let lexer ← (lexer.openBlockHere .blockMappingStart).dropCandidate
  return { lexer with keyAllowed := !lexer.inFlow }.emitIndicator .key 1

/-- A colon makes the candidate a key.  Without a candidate it follows an
explicit key or stands for an empty one. -/
def value (lexer : Lexer) : Except Fault Lexer := do
  match lexer.candidate with
  | some candidate =>
    let lexer := { lexer with
      tokens := lexer.tokens.insertIdxIfInBounds candidate.index .key
      candidate := none
      keyAllowed := false }
    let lexer := lexer.openBlock candidate.mark.column candidate.index .blockMappingStart
    return lexer.emitIndicator .value 1
  | none =>
    if !lexer.inFlow && !lexer.keyAllowed then throw .misplacedValue
    let lexer := lexer.openBlockHere .blockMappingStart
    return { lexer with keyAllowed := !lexer.inFlow }.emitIndicator .value 1

/-- A token that may begin a key. -/
def nodePart (lexer : Lexer) (scan : Cursor → Except Fault (Token × Cursor)) :
    Except Fault Lexer := do
  let lexer ← lexer.offerCandidate
  let (token, cursor) ← scan lexer.cursor
  return { lexer with cursor, keyAllowed := false }.emit token

def name (token : String → Token) (cursor : Cursor) : Except Fault (Token × Cursor) := do
  let (name, cursor) ← Token.scanName cursor
  return (token (String.ofList name), cursor)

def quoted (style : Style) (cursor : Cursor) : Except Fault (Token × Cursor) := do
  let start := cursor.next
  let (text, cursor) ←
    if style = .singleQuoted then Quoted.single start.rest start.mark [] .empty
    else Quoted.double start.rest start.mark [] .empty none
  return (.scalar style (String.ofList text), cursor)

def plain (lexer : Lexer) : Except Fault Lexer := do
  let lexer ← lexer.offerCandidate
  let (text, hasBreak, cursor) ←
    Plain.scan lexer.inFlow lexer.margin lexer.cursor.rest lexer.cursor.mark [] .empty
  return { lexer with cursor, keyAllowed := hasBreak }.emit (.scalar .plain (String.ofList text))

def block (lexer : Lexer) (style : Style) : Except Fault Lexer := do
  let lexer ← lexer.dropCandidate
  let (text, cursor) ← Block.scan (style = .literal) lexer.margin lexer.cursor.next
  return { lexer with cursor, keyAllowed := true }.emit (.scalar style (String.ofList text))

/-- Whether a plain scalar begins with `c` in front of `rest`. -/
def beginsPlain (inFlow : Bool) (c : Char) (rest : List Char) : Bool :=
  if c = '-' then !atSpace rest
  else if c = '?' || c = ':' then !inFlow && !atSpace rest
  else !(isSpace c || ",[]\x7b\x7d#&*!|>'\"%@`".toList.contains c)

/-- Reads the token at the cursor, which `c` begins. -/
def token (lexer : Lexer) (c : Char) (rest : List Char) : Except Fault Lexer :=
  let inFlow := lexer.inFlow
  if lexer.column = 0 && c = '%' then lexer.directive
  else if lexer.column = 0 && atMarker '-' (c :: rest) then lexer.documentMarker .documentStart
  else if lexer.column = 0 && atMarker '.' (c :: rest) then lexer.documentMarker .documentEnd
  else if c = '[' then lexer.openFlow .flowSequenceStart
  else if c = '{' then lexer.openFlow .flowMappingStart
  else if c = ']' then lexer.closeFlow .flowSequenceEnd
  else if c = '}' then lexer.closeFlow .flowMappingEnd
  else if c = ',' then lexer.flowEntry
  else if c = '-' && atSpace rest then lexer.blockEntry
  else if c = '?' && (inFlow || atSpace rest) then lexer.key
  else if c = ':' && (inFlow || atSpace rest) then lexer.value
  else if c = '*' then lexer.nodePart (name .alias)
  else if c = '&' then lexer.nodePart (name .anchor)
  else if c = '!' then lexer.nodePart (Token.scanTag inFlow)
  else if c = '|' && !inFlow then lexer.block .literal
  else if c = '>' && !inFlow then lexer.block .folded
  else if c = apostrophe then lexer.nodePart (quoted .singleQuoted)
  else if c = '"' then lexer.nodePart (quoted .doubleQuoted)
  else if beginsPlain inFlow c rest then lexer.plain
  else .error .strayCharacter

/-- Reads tokens to the end of the text, at most `fuel` of them. -/
def run : Nat → Lexer → Except Fault (List Token)
  | 0, _ => .error .unbounded
  | fuel + 1, lexer => do
    let lexer ← lexer.advance
    match lexer.cursor.rest with
    | [] => return (← lexer.endBlocks).tokens.toList
    | c :: rest => run fuel (← lexer.token c rest)

end Lexer

/-- The tokens of a text.  Each takes up at least one character. -/
def Token.ofText (text : List Char) : Except Fault (List Token) :=
  if text.all isAllowed then
    let text := normalizeBreaks text
    Lexer.run (text.length + 1) { cursor := { rest := text } }
  else
    .error .forbiddenCharacter

end Telemetry.Yaml
