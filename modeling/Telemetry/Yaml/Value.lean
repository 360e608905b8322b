import Telemetry.Yaml.Schema
import Telemetry.Yaml.Scalar

/-!
# Writing documents

A value is written in block form, two columns deeper for each mapping.  Text is
plain where it reads as itself, quoted where it does not, and a literal block
where it has several lines.
-/

namespace Telemetry.Yaml

inductive Value where
  | number (amount : Nat)
  | text (content : String)
  | mapping (entries : List (String × Value))

/-- Characters that are written as they are; others need an escape. -/
def isPrintable (c : Char) : Bool :=
  let n := c.toNat
  n = 0x0A || (0x20 ≤ n && n ≤ 0x7E) || (0xA0 ≤ n && n ≤ 0xFFFD && c != byteOrderMark) ||
    0x10000 ≤ n

namespace Style

/-- Whether two neighbours in a text belong to the given classes. -/
def hasPair (first second : Char → Bool) : List Char → Bool
  | a :: b :: rest => first a && second b || hasPair first second (b :: rest)
  | _ => false

/-- Whether the text begins like an indicator or a document marker. -/
def beginsLikeMarkup : List Char → Bool
  | [] => false
  | c :: rest =>
    "#,[]\x7b\x7d&*!|>'\"%@`".toList.contains c ||
      (c = '?' || c = '-') && atSpace rest ||
      ["---", "..."].contains (String.ofList (c :: rest.take 2))

/-- Whether the text would be cut off or refused as a plain scalar in a block. -/
def refusesPlain (text : List Char) : Bool :=
  beginsLikeMarkup text || text.head? = some ' ' || text.getLast? = some ' ' ||
    hasPair (· = ':') isSpace text || text.getLast? = some ':' ||
    hasPair isSpace (· = '#') text || text.any isBreak

/-- The style in which a text is written.  Only escapes keep a space in front of
a line break, only they and literal blocks one behind it, and a literal block
cannot end in a space. -/
def ofText (text : List Char) : Style :=
  if !text.all isPrintable || hasPair (· = ' ') isBreak text then
    .doubleQuoted
  else if text.contains '\n' then
    if text.getLast? = some ' ' then .doubleQuoted else .literal
  else if Schema.isAmbiguous text || refusesPlain text then
    if hasPair isBreak (· = ' ') text then .doubleQuoted else .singleQuoted
  else
    .plain

end Style

namespace Value

def spaces (count : Nat) : List Char := List.replicate count ' '

/-- Indents whatever follows a line break, unless it is another one.
`lineBegins` says that the text itself follows one. -/
def indentLines (indent : Nat) (lineBegins : Bool) : List Char → List Char
  | [] => []
  | c :: rest =>
    if isBreak c then c :: indentLines indent true rest
    else (if lineBegins then spaces indent else []) ++ c :: indentLines indent false rest

def endsInBreak (text : List Char) : Bool := (text.getLast?.map isBreak).getD false

def singleQuoted (indent : Nat) (text : List Char) : List Char :=
  let doubled := text.flatMap fun c => if c = apostrophe then [c, c] else [c]
  let last := if endsInBreak text then spaces indent else []
  apostrophe :: indentLines indent false doubled ++ last ++ [apostrophe]

/-- A character code in upper-case hexadecimal. -/
def codeDigits (width code : Nat) : List Char :=
  (List.range width).reverse.map fun place => (Hex.digit ((code >>> (4 * place)) % 16)).toUpper

/-- What stands for a character between quotation marks. -/
def escaped (c : Char) : List Char :=
  match c with
  | '"' => ['\\', '"']
  | '\\' => ['\\', '\\']
  | c =>
    if isPrintable c && !isBreak c then
      [c]
    else
      let code := c.toNat
      match code with
      | 0x00 => ['\\', '0']
      | 0x07 => ['\\', 'a']
      | 0x08 => ['\\', 'b']
      | 0x09 => ['\\', 't']
      | 0x0A => ['\\', 'n']
      | 0x0B => ['\\', 'v']
      | 0x0C => ['\\', 'f']
      | 0x0D => ['\\', 'r']
      | 0x1B => ['\\', 'e']
      | 0x85 => ['\\', 'N']
      | 0x2028 => ['\\', 'L']
      | 0x2029 => ['\\', 'P']
      | code =>
        if code ≤ 0xFF then '\\' :: 'x' :: codeDigits 2 code
        else if code ≤ 0xFFFF then '\\' :: 'u' :: codeDigits 4 code
        else '\\' :: 'U' :: codeDigits 8 code

def doubleQuoted (text : List Char) : List Char :=
  '"' :: text.flatMap escaped ++ ['"']

/-- The indentation of a block is spelled out where its first line begins with
white space. -/
def indentationHint : List Char → List Char
  | [] => []
  | c :: _ => if c = ' ' || isBreak c then ['2'] else []

/-- One line break at the end is the rule; none and several are marked. -/
def chompingHint (text : List Char) : List Char :=
  match text.reverse with
  | last :: others =>
    if !isBreak last then ['-']
    else match others with
      | before :: _ => if isBreak before then ['+'] else []
      | [] => ['+']
  | [] => ['-']

def literal (indent : Nat) (text : List Char) : List Char :=
  '|' :: indentationHint text ++ chompingHint text ++ '\n' :: indentLines indent true text

/-- A text in its style; lines after the first are indented. -/
def written (indent : Nat) (text : List Char) : List Char :=
  match Style.ofText text with
  | .singleQuoted => singleQuoted indent text
  | .doubleQuoted => doubleQuoted text
  | .literal => literal indent text
  | .plain | .folded => text

/-- A text as a name in front of a colon, which is never a block. -/
def writtenName (text : List Char) : List Char :=
  if Style.ofText text = .literal then doubleQuoted text else written 0 text

/-- Ends a line that has not ended yet. -/
def endLine (line : List Char) : List Char :=
  if endsInBreak line then line else line ++ ['\n']

mutual

/-- A value where its first line has begun.  The entries of a mapping go to lines
of their own, indented by `indent`. -/
def inLine (indent : Nat) : Value → List Char
  | .number amount => ' ' :: (toString amount).toList ++ ['\n']
  | .text content => ' ' :: endLine (written (indent + 2) content.toList)
  | .mapping [] => [' ', '{', '}', '\n']
  | .mapping entries => '\n' :: lines (indent + 2) entries

/-- The entries of a mapping, one after the other. -/
def lines (indent : Nat) : List (String × Value) → List Char
  | [] => []
  | (name, value) :: entries =>
    spaces indent ++ writtenName name.toList ++ ':' :: inLine indent value ++
      lines indent entries

end

/-- The document that holds a value alone. -/
def render : Value → String
  | .mapping (entry :: entries) => String.ofList (lines 0 (entry :: entries))
  | value => String.ofList ((inLine 0 value).drop 1)

end Value

end Telemetry.Yaml
