import Telemetry.Yaml.Alphabet

/-!
# Places in a document

A cursor is the text that is still to be read together with the place where it
begins.
-/

namespace Telemetry.Yaml

/-- A place, counted from zero.  Columns are characters. -/
structure Mark where
  /-- Octets of UTF-8 in front of it, a line break counting as one. -/
  index : Nat := 0
  line : Nat := 0
  column : Nat := 0
  deriving DecidableEq, Repr

/-- The place right after a character. -/
def Mark.after (mark : Mark) (c : Char) : Mark :=
  if isBreak c then ⟨mark.index + 1, mark.line + 1, 0⟩
  else ⟨mark.index + c.utf8Size, mark.line, mark.column + 1⟩

structure Cursor where
  rest : List Char
  mark : Mark := {}

namespace Cursor

/-- The longest run of characters in a class, and the cursor after it. -/
def spanFrom (inClass : Char → Bool) : List Char → Mark → List Char × Cursor
  | [], mark => ([], ⟨[], mark⟩)
  | c :: rest, mark =>
    if inClass c then
      let (run, cursor) := spanFrom inClass rest (mark.after c)
      (c :: run, cursor)
    else
      ([], ⟨c :: rest, mark⟩)

def span (cursor : Cursor) (inClass : Char → Bool) : List Char × Cursor :=
  spanFrom inClass cursor.rest cursor.mark

def skip (cursor : Cursor) (inClass : Char → Bool) : Cursor := (cursor.span inClass).2

/-- The cursor after one character. -/
def next (cursor : Cursor) : Cursor :=
  match cursor.rest with
  | [] => cursor
  | c :: rest => ⟨rest, cursor.mark.after c⟩

/-- The first character, if there is one. -/
def head? (cursor : Cursor) : Option Char := cursor.rest.head?

/-- Skips a comment up to the line break that ends it. -/
def skipComment (cursor : Cursor) : Cursor :=
  if cursor.head? = some '#' then cursor.skip (!isBreak ·) else cursor

/-- Skips blanks, a comment and the line break, which must be all there is left
on the line; `none` where there is more. -/
def skipLineEnd? (cursor : Cursor) : Option Cursor :=
  let cursor := (cursor.skip isBlank).skipComment
  match cursor.rest with
  | [] => some cursor
  | c :: _ => if isBreak c then some cursor.next else none

end Cursor

end Telemetry.Yaml
