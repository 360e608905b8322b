import Telemetry.Text.Hex
import Telemetry.Yaml.Cursor
import Telemetry.Yaml.Fault

/-!
# Scalars

The text of a scalar is written plain, between quotes of either kind, or as a
block of lines.  Except in literal blocks, lines are folded: a single line break
between two pieces of text reads as a space and further ones as line feeds.
-/

namespace Telemetry.Yaml

inductive Style where
  | plain
  | singleQuoted
  | doubleQuoted
  | literal
  | folded
  deriving DecidableEq, Repr

/-- White space since the last piece of text. -/
inductive Gap where
  /-- Blanks on the same line, latest first. -/
  | blanks (run : List Char)
  /-- Line breaks: the first, unless it was escaped, and the others, latest
  first. -/
  | lines (first : Option Char) (others : List Char)
  deriving DecidableEq, Repr

namespace Gap

def empty : Gap := .blanks []

def isEmpty : Gap → Bool
  | .blanks [] => true
  | _ => false

def hasBreak : Gap → Bool
  | .blanks _ => false
  | .lines _ _ => true

/-- The gap with one more white space character.  Blanks at the start of a line
do not count. -/
def push (gap : Gap) (c : Char) : Gap :=
  match gap with
  | .blanks run => if isBreak c then .lines (some c) [] else .blanks (c :: run)
  | .lines first others => if isBreak c then .lines first (c :: others) else gap

/-- What the gap reads as when more text follows, latest character first. -/
def folded : Gap → List Char
  | .blanks run => run
  | .lines (some '\n') [] => [' ']
  | .lines (some '\n') others => others
  | .lines (some first) others => others ++ [first]
  | .lines none others => others

end Gap

/-- The text of a scalar and the cursor after it. -/
abbrev Scanned := Except Fault (List Char × Cursor)

namespace Quoted

/-- Reads up to the closing apostrophe.  `text` holds what was read, latest
character first. -/
def single : List Char → Mark → List Char → Gap → Scanned
  | [], _, _, _ => .error .unterminatedQuote
  | c :: rest, mark, text, gap =>
    if isSpace c then
      single rest (mark.after c) text (gap.push c)
    else if mark.column = 0 && atDocumentMarker (c :: rest) then
      .error .indicatorInQuote
    else if c = apostrophe then
      match rest with
      | [] => .ok ((gap.folded ++ text).reverse, ⟨[], mark.after c⟩)
      | d :: more =>
        if d = apostrophe then
          single more ((mark.after c).after d) (d :: (gap.folded ++ text)) .empty
        else
          .ok ((gap.folded ++ text).reverse, ⟨d :: more, mark.after c⟩)
    else
      single rest (mark.after c) (c :: (gap.folded ++ text)) .empty

/-- Escapes of one letter. -/
def shortEscape? (c : Char) : Option Char :=
  match c with
  | '0' => some (Char.ofNat 0x00)
  | 'a' => some (Char.ofNat 0x07)
  | 'b' => some (Char.ofNat 0x08)
  | 't' | '\t' => some '\t'
  | 'n' => some '\n'
  | 'v' => some (Char.ofNat 0x0B)
  | 'f' => some (Char.ofNat 0x0C)
  | 'r' => some '\r'
  | 'e' => some (Char.ofNat 0x1B)
  | ' ' => some ' '
  | '"' => some '"'
  | '/' => some '/'
  | '\\' => some '\\'
  | 'N' => some nextLine
  | '_' => some (Char.ofNat 0xA0)
  | 'L' => some lineSeparator
  | 'P' => some paragraphSeparator
  | _ => none

/-- Number of hexadecimal digits after a letter that announces a character
code. -/
def codeDigits? (c : Char) : Option Nat :=
  match c with
  | 'x' => some 2
  | 'u' => some 4
  | 'U' => some 8
  | _ => none

/-- The character with a code, surrogates excluded. -/
def ofCode? (code : Nat) : Option Char :=
  if code < 0xD800 ∨ 0xDFFF < code ∧ code ≤ 0x10FFFF then some (Char.ofNat code) else none

/-- Reads up to the closing quotation mark.  Inside a character code `code`
holds the number of digits to come and the value so far. -/
def double : List Char → Mark → List Char → Gap → Option (Nat × Nat) → Scanned
  | [], _, _, _, _ => .error .unterminatedQuote
  | c :: rest, mark, text, gap, some (digits, value) =>
    match Hex.digitValue? c with
    | none => .error .unknownEscape
    | some digit =>
      let value := value * 16 + digit
      if digits ≤ 1 then
        match ofCode? value with
        | some coded => double rest (mark.after c) (coded :: text) gap none
        | none => .error .notACodePoint
      else
        double rest (mark.after c) text gap (some (digits - 1, value))
  | c :: rest, mark, text, gap, none =>
    if isSpace c then
      double rest (mark.after c) text (gap.push c) none
    else if mark.column = 0 && atDocumentMarker (c :: rest) then
      .error .indicatorInQuote
    else if c = '"' then
      .ok ((gap.folded ++ text).reverse, ⟨rest, mark.after c⟩)
    else if c = '\\' then
      match rest with
      | [] => .error .unknownEscape
      | d :: more =>
        let mark := (mark.after c).after d
        if isBreak d then
          double more mark (gap.folded ++ text) (.lines none []) none
        else
          match shortEscape? d with
          | some escaped => double more mark (escaped :: (gap.folded ++ text)) .empty none
          | none =>
            match codeDigits? d with
            | some digits => double more mark (gap.folded ++ text) .empty (some (digits, 0))
            | none => .error .unknownEscape
    else
      double rest (mark.after c) (c :: (gap.folded ++ text)) .empty none

end Quoted

namespace Plain

def isFlowIndicator (c : Char) : Bool :=
  c = ',' || c = '[' || c = ']' || c = '{' || c = '}'

/-- Whether a colon may not stand in front of this text inside a flow
collection. -/
def refusesColon : List Char → Bool
  | [] => false
  | c :: _ => isFlowIndicator c || c = '?'

/-- Whether a plain scalar is over in front of `c`, which is no white space. -/
def isOver (inFlow : Bool) (margin column : Nat) (gap : Gap) (c : Char) (rest : List Char) :
    Bool :=
  !gap.isEmpty && (c = '#' || !inFlow && column < margin) ||
    column = 0 && atDocumentMarker (c :: rest) ||
    c = ':' && atSpace rest ||
    inFlow && isFlowIndicator c

/-- Reads a plain scalar.  Continuation lines must be indented by `margin`
columns, except in flow collections.  The result says whether white space with a
line break was passed at the end. -/
def scan (inFlow : Bool) (margin : Nat) : List Char → Mark → List Char → Gap →
    Except Fault (List Char × Bool × Cursor)
  | [], mark, text, gap => .ok (text.reverse, gap.hasBreak, ⟨[], mark⟩)
  | c :: rest, mark, text, gap =>
    if isSpace c then
      if c = '\t' && gap.hasBreak && mark.column < margin then
        .error .tabIndentation
      else
        scan inFlow margin rest (mark.after c) text (gap.push c)
    else if isOver inFlow margin mark.column gap c rest then
      .ok (text.reverse, gap.hasBreak, ⟨c :: rest, mark⟩)
    else if inFlow && c = ':' && refusesColon rest then
      .error .unexpectedColon
    else
      scan inFlow margin rest (mark.after c) (c :: (gap.folded ++ text)) .empty

end Plain

namespace Block

/-- What becomes of the line breaks at the end of a block. -/
inductive Chomping where
  | clip
  | strip
  | keep
  deriving DecidableEq, Repr

def chomping? (c : Char) : Option Chomping :=
  if c = '+' then some .keep else if c = '-' then some .strip else none

/-- Chomping and indentation indicator, in either order.  An indentation of 0
stands for none given. -/
def header (text : List Char) : Except Fault (Chomping × Nat × Nat) :=
  let digit (c : Char) (chomping : Chomping) (used : Nat) : Except Fault (Chomping × Nat × Nat) :=
    if c = '0' then .error .blockScalarHeader else .ok (chomping, c.toNat - 48, used)
  match text with
  | [] => .ok (.clip, 0, 0)
  | c :: rest =>
    match chomping? c with
    | some chomping =>
      match rest with
      | d :: _ => if d.isDigit then digit d chomping 2 else .ok (chomping, 0, 1)
      | [] => .ok (chomping, 0, 1)
    | none =>
      if c.isDigit then
        match rest.head?.bind chomping? with
        | some chomping => digit c chomping 2
        | none => digit c .clip 1
      else
        .ok (.clip, 0, 0)

/-- Passes empty lines and the indentation of the first line of text.  The
result has the breaks, latest first, and the deepest column seen. -/
def leadingLines : List Char → Mark → List Char → Nat →
    Except Fault (List Char × Nat × Cursor)
  | [], mark, breaks, deepest => .ok (breaks, max deepest mark.column, ⟨[], mark⟩)
  | c :: rest, mark, breaks, deepest =>
    if c = ' ' then
      leadingLines rest (mark.after c) breaks deepest
    else if c = '\t' then
      .error .tabIndentation
    else if isBreak c then
      leadingLines rest (mark.after c) (c :: breaks) (max deepest mark.column)
    else
      .ok (breaks, max deepest mark.column, ⟨c :: rest, mark⟩)

/-- The lines of a block that have been read. -/
structure Lines where
  /-- Text, latest character first. -/
  text : List Char := []
  /-- The break that ended the last line of text. -/
  pending : Option Char := none
  /-- Breaks of empty lines since, latest first. -/
  empties : List Char := []
  /-- Whether the last line of text began with a blank. -/
  indented : Bool := false
  /-- Whether a line of text is being read. -/
  inLine : Bool := false

/-- A new line of text begins with `c`.  In a folded block a break between two
lines that begin with neither a blank is a fold. -/
def Lines.beginLine (lines : Lines) (isLiteral : Bool) (c : Char) : Lines :=
  let folds := !isLiteral && lines.pending = some '\n' && !lines.indented && !isBlank c
  let joint :=
    if folds then (if lines.empties.isEmpty then [' '] else [])
    else lines.pending.toList
  { text := c :: (lines.empties ++ joint ++ lines.text)
    indented := isBlank c
    inLine := true }

/-- The finished text. -/
def Lines.finish (lines : Lines) (chomping : Chomping) : List Char :=
  let last := if chomping = .strip then [] else lines.pending.toList
  let empties := if chomping = .keep then lines.empties else []
  (empties ++ last ++ lines.text).reverse

/-- Reads lines that are indented by `indent` columns. -/
def scanLines (isLiteral : Bool) (chomping : Chomping) (indent : Nat) :
    List Char → Mark → Lines → Scanned
  | [], mark, lines => .ok (lines.finish chomping, ⟨[], mark⟩)
  | c :: rest, mark, lines =>
    if lines.inLine then
      if isBreak c then
        scanLines isLiteral chomping indent rest (mark.after c)
          { lines with pending := some c, inLine := false }
      else
        scanLines isLiteral chomping indent rest (mark.after c)
          { lines with text := c :: lines.text }
    else if c = ' ' && mark.column < indent then
      scanLines isLiteral chomping indent rest (mark.after c) lines
    else if c = '\t' && mark.column < indent then
      .error .tabIndentation
    else if isBreak c then
      scanLines isLiteral chomping indent rest (mark.after c)
        { lines with empties := c :: lines.empties }
    else if mark.column = indent then
      scanLines isLiteral chomping indent rest (mark.after c) (lines.beginLine isLiteral c)
    else
      .ok (lines.finish chomping, ⟨c :: rest, mark⟩)

/-- Reads a block scalar from its header on.  `margin` is the least indentation
that belongs to it. -/
def scan (isLiteral : Bool) (margin : Nat) (cursor : Cursor) : Scanned := do
  let (chomping, increment, used) ← header cursor.rest
  let cursor := Nat.repeat Cursor.next used cursor
  match cursor.skipLineEnd? with
  | none => .error .blockScalarHeader
  | some cursor =>
    if 0 < increment then
      scanLines isLiteral chomping (margin - 1 + increment) cursor.rest cursor.mark {}
    else
      let (empties, deepest, cursor) ← leadingLines cursor.rest cursor.mark [] 0
      let indent := max (max deepest margin) 1
      scanLines isLiteral chomping indent cursor.rest cursor.mark { empties }

end Block

end Telemetry.Yaml
