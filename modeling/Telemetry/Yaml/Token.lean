import Telemetry.Yaml.Scalar

/-!
# Tokens

The words of a document.  Block structure, which the text shows by indentation
alone, has opening and closing tokens of its own.
-/

namespace Telemetry.Yaml

inductive Token where
  | version (major minor : Nat)
  /-- Gives a tag handle its meaning. -/
  | tagHandle (handle : String) (scope : Bytes)
  | documentStart
  | documentEnd
  | blockSequenceStart
  | blockMappingStart
  | blockEnd
  | flowSequenceStart
  | flowSequenceEnd
  | flowMappingStart
  | flowMappingEnd
  | blockEntry
  | flowEntry
  | key
  | value
  | alias (name : String)
  | anchor (name : String)
  | tag (handle : String) (suffix : Bytes)
  | scalar (style : Style) (text : String)
  deriving DecidableEq, Repr

namespace Token

/-- Characters that may occur in a tag besides word characters.  Flow indicators
only do so between angle brackets. -/
def isTagCharacter (verbatim : Bool) (c : Char) : Bool :=
  isWord c || ";/?:@&=+$.!~*'()%".toList.contains c || verbatim && ",[]".toList.contains c

/-- How many continuation octets follow the first octet of a character. -/
def continuationOctets? (octet : Nat) : Option Nat :=
  if octet < 0x80 then some 0
  else if octet < 0xC0 then none
  else if octet < 0xE0 then some 1
  else if octet < 0xF0 then some 2
  else if octet < 0xF8 then some 3
  else none

/-- Reads percent escapes.  Characters beyond ASCII are escaped octet by octet;
`missing` continuation octets have to follow.  Whether the octets are well-formed
beyond that is left open. -/
def unescape : List Char → Nat → Except Fault Bytes
  | [], missing => if missing = 0 then .ok [] else .error .tagText
  | '%' :: high :: low :: rest, missing =>
    match Hex.digitValue? high, Hex.digitValue? low with
    | some high, some low =>
      let octet := high * 16 + low
      let next :=
        if missing = 0 then continuationOctets? octet
        else if octet / 0x40 = 2 then some (missing - 1)
        else none
      match next with
      | some missing => (UInt8.ofNat octet :: ·) <$> unescape rest missing
      | none => .error .tagText
    | _, _ => .error .tagText
  | c :: rest, missing =>
    if missing ≠ 0 || c = '%' then .error .tagText
    else (UInt8.ofNat c.toNat :: ·) <$> unescape rest 0

/-- The octets of a tag from the cursor on, escapes resolved; `none` where nothing
is written.  A zero octet ends the tag, whatever is written behind it. -/
def tagOctets (verbatim : Bool) (cursor : Cursor) : Except Fault (Option Bytes × Cursor) := do
  let (raw, cursor) := cursor.span (isTagCharacter verbatim)
  let octets ← unescape raw 0
  return (if raw.isEmpty then none else some (octets.takeWhile (· ≠ 0)), cursor)

/-- An exclamation mark, word characters and an optional exclamation mark. -/
def scanHandle (cursor : Cursor) : Scanned :=
  if cursor.head? = some '!' then
    let (word, cursor) := cursor.next.span isWord
    if cursor.head? = some '!' then
      .ok ('!' :: word ++ ['!'], cursor.next)
    else
      .ok ('!' :: word, cursor)
  else
    .error .tagText

/-- A tag as handle and suffix.  A tag between angle brackets has no handle, and
a lone exclamation mark is a suffix without one. -/
def scanTag (inFlow : Bool) (cursor : Cursor) : Except Fault (Token × Cursor) := do
  let ((handle, suffix), cursor) ←
    if cursor.next.head? = some '<' then do
      match ← tagOctets true cursor.next.next with
      | (some suffix, cursor) =>
        if cursor.head? = some '>' then .ok (([], suffix), cursor.next)
        else .error Fault.tagText
      | (none, _) => .error Fault.tagText
    else do
      let (handle, cursor) ← scanHandle cursor
      let (suffix, cursor) ← tagOctets false cursor
      if 1 < handle.length && handle.getLast? = some '!' then
        match suffix with
        | some suffix => .ok ((handle, suffix), cursor)
        | none => .error Fault.tagText
      else
        let suffix := asciiBytes (handle.drop 1) ++ suffix.getD []
        if suffix.isEmpty then .ok (([], asciiBytes ['!']), cursor)
        else .ok ((['!'], suffix), cursor)
  if atSpace cursor.rest || inFlow && cursor.head? = some ',' then
    return (.tag (String.ofList handle) suffix, cursor)
  else
    .error .tagText

/-- The name of an anchor or alias, after its indicator. -/
def scanName (cursor : Cursor) : Scanned :=
  let (name, cursor) := cursor.next.span isWord
  let ends := atSpace cursor.rest ||
    (cursor.head?.map "?:,]\x7d%@`".toList.contains).getD false
  if name.isEmpty || !ends then .error .anchorName else .ok (name, cursor)

/-- At most nine digits. -/
def scanVersionNumber (cursor : Cursor) : Except Fault (Nat × Cursor) :=
  let (digits, cursor) := cursor.span Char.isDigit
  if digits.isEmpty || 9 < digits.length then .error .directiveText
  else .ok (digits.foldl (fun value c => value * 10 + (c.toNat - 48)) 0, cursor)

/-- A directive, which takes up its whole line. -/
def scanDirective (cursor : Cursor) : Except Fault (Token × Cursor) := do
  let (name, cursor) := cursor.next.span isWord
  let (token, cursor) ←
    if !atSpace cursor.rest then
      .error Fault.directiveText
    else if name = "YAML".toList then do
      let (major, cursor) ← scanVersionNumber (cursor.skip isBlank)
      if cursor.head? ≠ some '.' then .error Fault.directiveText
      else do
        let (minor, cursor) ← scanVersionNumber cursor.next
        .ok (Token.version major minor, cursor)
    else if name = "TAG".toList then do
      let (handle, cursor) ← scanHandle (cursor.skip isBlank)
      if handle.getLast? ≠ some '!' then
        .error Fault.tagText
      else if !(cursor.head?.map isBlank).getD false then
        .error Fault.directiveText
      else do
        match ← tagOctets true (cursor.skip isBlank) with
        | (some scope, cursor) =>
          if atSpace cursor.rest then .ok (Token.tagHandle (String.ofList handle) scope, cursor)
          else .error Fault.directiveText
        | (none, _) => .error Fault.tagText
    else
      .error Fault.directiveText
  match cursor.skipLineEnd? with
  | some cursor => return (token, cursor)
  | none => .error .directiveText

end Token

end Telemetry.Yaml
