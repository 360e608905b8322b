/-!
# The alphabet of documents

Which characters may occur, and the classes that the grammar is written in.
Line breaks come in many spellings; `normalizeBreaks` leaves the line feed and
the two Unicode separators.
-/

namespace Telemetry.Yaml

/-- Characters that may occur in a document at all. -/
def isAllowed (c : Char) : Bool :=
  let n := c.toNat
  n = 0x09 || n = 0x0A || n = 0x0D || (0x20 ≤ n && n ≤ 0x7E) || n = 0x85 ||
    (0xA0 ≤ n && n ≤ 0xFFFD) || 0x10000 ≤ n

def nextLine : Char := Char.ofNat 0x85

def lineSeparator : Char := Char.ofNat 0x2028

def paragraphSeparator : Char := Char.ofNat 0x2029

def byteOrderMark : Char := Char.ofNat 0xFEFF

def apostrophe : Char := Char.ofNat 0x27

/-- Carriage returns, pairs of carriage return and line feed, and next-line
characters become line feeds. -/
def normalizeBreaks : List Char → List Char
  | [] => []
  | '\r' :: '\n' :: rest => '\n' :: normalizeBreaks rest
  | c :: rest => (if c = '\r' || c = nextLine then '\n' else c) :: normalizeBreaks rest

/-- Line breaks that are left after normalization. -/
def isBreak (c : Char) : Bool := c = '\n' || c = lineSeparator || c = paragraphSeparator

def isBlank (c : Char) : Bool := c = ' ' || c = '\t'

def isSpace (c : Char) : Bool := isBlank c || isBreak c

/-- Characters of anchors, tag handles and directive names. -/
def isWord (c : Char) : Bool := c.isAlphanum || c = '_' || c = '-'

/-- Whether the text is over or goes on with white space. -/
def atSpace : List Char → Bool
  | [] => true
  | c :: _ => isSpace c

/-- Whether a document marker stands here.  It only counts at the start of a
line. -/
def atMarker (marker : Char) : List Char → Bool
  | a :: b :: c :: rest => a = marker && b = marker && c = marker && atSpace rest
  | _ => false

def atDocumentMarker (text : List Char) : Bool := atMarker '-' text || atMarker '.' text

end Telemetry.Yaml
