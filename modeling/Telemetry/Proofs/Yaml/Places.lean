import Mathlib
import Telemetry.Yaml.Lexer
import Telemetry.Yaml.Value

/-!
# Places, white space and the end of a value

Where a written value ends the next line is indented less than the value's own
margin, or the text is over.  Whatever reads a value stops there or at the line
break in front, and skipping white space from either leads to the same place.
-/

namespace Telemetry.Yaml

open Value (spaces)

/-! ## Classes of characters -/

@[simp]
theorem isBreak_space : isBreak ' ' = false := rfl

@[simp]
theorem isBreak_lineFeed : isBreak '\n' = true := rfl

@[simp]
theorem isSpace_space : isSpace ' ' = true := rfl

@[simp]
theorem isSpace_lineFeed : isSpace '\n' = true := rfl

theorem isBreak_of_not_isSpace {c : Char} (h : isSpace c = false) : isBreak c = false := by
  simp_all [isSpace]

theorem isSpace_of_isBreak {c : Char} (h : isBreak c = true) : isSpace c = true := by
  simp [isSpace, h]

/-! ## Neighbours -/

namespace Style

/-- Neighbours in a longer text are neighbours in it. -/
theorem hasPair_of_cons {first second : Char → Bool} {c : Char} {text : List Char}
    (h : hasPair first second (c :: text) = false) : hasPair first second text = false := by
  cases text with
  | nil => rfl
  | cons d text => exact (Bool.or_eq_false_iff.mp (by simpa only [hasPair] using h)).2

/-- The two characters in front are no pair. -/
theorem not_pair_of_cons {first second : Char → Bool} {c d : Char} {text : List Char}
    (h : hasPair first second (c :: d :: text) = false) (hc : first c = true) :
    second d = false := by
  have hpair := (Bool.or_eq_false_iff.mp (by simpa only [hasPair] using h)).1
  simpa [hc] using hpair

/-- What the style of a text says about it. -/
theorem ofText_cases (text : List Char) :
    ofText text = .doubleQuoted ∨
      (∀ c ∈ text, isPrintable c = true) ∧ hasPair (· = ' ') isBreak text = false ∧
        (ofText text = .literal ∧ '\n' ∈ text ∨
          ofText text = .singleQuoted ∧ '\n' ∉ text ∧ hasPair isBreak (· = ' ') text = false ∨
          ofText text = .plain ∧ text ≠ [] ∧ refusesPlain text = false) := by
  unfold ofText
  split
  · exact .inl rfl
  · next hprintable =>
    simp only [Bool.or_eq_true, Bool.not_eq_true', not_or, Bool.not_eq_false, Bool.not_eq_true,
      List.all_eq_true] at hprintable
    split
    · next hlineFeed =>
      split
      · exact .inl rfl
      · exact .inr ⟨hprintable.1, hprintable.2, .inl ⟨rfl, List.contains_iff_mem.mp hlineFeed⟩⟩
    · next hlineFeed =>
      rw [List.contains_iff_mem] at hlineFeed
      split
      · split
        · exact .inl rfl
        · next hindented =>
          exact .inr ⟨hprintable.1, hprintable.2,
            .inr (.inl ⟨rfl, hlineFeed, by simpa using hindented⟩)⟩
      · next haccepted =>
        simp only [Bool.or_eq_true, not_or, Bool.not_eq_true] at haccepted
        refine .inr ⟨hprintable.1, hprintable.2, .inr (.inr ⟨rfl, ?_, haccepted.2⟩)⟩
        rintro rfl
        exact absurd haccepted.1 (by decide)

theorem isPrintable_of_ofText {text : List Char} (h : ofText text ≠ .doubleQuoted) {c : Char}
    (hc : c ∈ text) : isPrintable c = true :=
  ((ofText_cases text).resolve_left h).1 c hc

end Style

/-! ## Places -/

theorem Mark.after_of_isBreak (mark : Mark) {c : Char} (h : isBreak c = true) :
    mark.after c = ⟨mark.index + 1, mark.line + 1, 0⟩ := by
  simp [after, h]

theorem Mark.after_of_not_isBreak (mark : Mark) {c : Char} (h : isBreak c = false) :
    mark.after c = ⟨mark.index + c.utf8Size, mark.line, mark.column + 1⟩ := by
  simp [after, h]

theorem Mark.column_after_pos (mark : Mark) {c : Char} (h : isBreak c = false) :
    0 < (mark.after c).column := by
  rw [mark.after_of_not_isBreak h]
  exact Nat.succ_pos _

/-- The place behind a number of spaces. -/
def Mark.indent (mark : Mark) (count : Nat) : Mark :=
  ⟨mark.index + count, mark.line, mark.column + count⟩

@[simp]
theorem Mark.indent_zero (mark : Mark) : mark.indent 0 = mark := rfl

@[simp]
theorem Mark.column_indent (mark : Mark) (count : Nat) :
    (mark.indent count).column = mark.column + count := rfl

theorem Mark.indent_after_space (mark : Mark) (count : Nat) :
    (mark.after ' ').indent count = mark.indent (count + 1) := by
  rw [mark.after_of_not_isBreak isBreak_space, indent, indent]
  simp [show Char.utf8Size ' ' = 1 from rfl, Nat.add_assoc, Nat.add_comm 1 count]

/-- Octets that a text takes up in UTF-8. -/
def octets (text : List Char) : Nat := (text.map Char.utf8Size).sum

/-- The place behind a text. -/
def Mark.past (mark : Mark) (text : List Char) : Mark := text.foldl Mark.after mark

@[simp]
theorem Mark.past_nil (mark : Mark) : mark.past [] = mark := rfl

@[simp]
theorem Mark.past_cons (mark : Mark) (c : Char) (text : List Char) :
    mark.past (c :: text) = (mark.after c).past text := rfl

/-- A text without line breaks leads along its line. -/
theorem Mark.past_of_not_isBreak (mark : Mark) {text : List Char}
    (h : ∀ c ∈ text, isBreak c = false) :
    mark.past text = ⟨mark.index + octets text, mark.line, mark.column + text.length⟩ := by
  induction text generalizing mark with
  | nil => rfl
  | cons c text ih =>
    rw [past_cons, ih _ fun d hd => h d (List.mem_cons_of_mem c hd),
      mark.after_of_not_isBreak (h c List.mem_cons_self)]
    simp only [octets, List.map_cons, List.sum_cons, List.length_cons, Mark.mk.injEq, true_and]
    omega

/-! ## Gaps -/

namespace Gap

theorem push_space_blanks (run : List Char) : (blanks run).push ' ' = blanks (' ' :: run) := rfl

/-- At the start of a line spaces are indentation. -/
theorem push_space_lines (first : Option Char) (others : List Char) :
    (lines first others).push ' ' = lines first others := rfl

theorem push_break_blanks {c : Char} (h : isBreak c = true) (run : List Char) :
    (blanks run).push c = lines (some c) [] := by
  simp [push, h]

theorem push_break_lines {c : Char} (h : isBreak c = true) (first : Option Char)
    (others : List Char) : (lines first others).push c = lines first (c :: others) := by
  simp [push, h]

@[simp]
theorem folded_blanks (run : List Char) : (blanks run).folded = run := rfl

@[simp]
theorem folded_empty : empty.folded = [] := rfl

/-- Only a line feed is folded. -/
theorem folded_lines {first : Char} (h : first ≠ '\n') (others : List Char) :
    (lines (some first) others).folded = others ++ [first] := by
  simp [folded, h]

end Gap

/-! ## Spaces -/

theorem spaces_succ (count : Nat) : spaces (count + 1) = ' ' :: spaces count := rfl

namespace Lexer

theorem skipSpace_spaces (count : Nat) (rest : List Char) (mark : Mark) (keyAllowed : Bool) :
    skipSpace false (spaces count ++ rest) mark keyAllowed false =
      skipSpace false rest (mark.indent count) keyAllowed false := by
  induction count generalizing mark with
  | zero => rfl
  | succ count ih =>
    rw [spaces_succ, List.cons_append, skipSpace, ← Mark.indent_after_space, ← ih]
    simp

/-- A character that begins a token where a key may stand. -/
structure BeginsToken (c : Char) : Prop where
  not_isSpace : isSpace c = false
  not_comment : c ≠ '#'
  not_byteOrderMark : c ≠ byteOrderMark

/-- White space ends where a token begins. -/
theorem skipSpace_of_beginsToken {c : Char} (h : BeginsToken c) (rest : List Char) (mark : Mark)
    (keyAllowed : Bool) :
    skipSpace false (c :: rest) mark keyAllowed false = (⟨c :: rest, mark⟩, keyAllowed) := by
  have hblank : isBlank c = false := by
    have := h.not_isSpace
    simp_all [isSpace]
  simp only [isBlank, Bool.or_eq_false_iff, decide_eq_false_iff_not] at hblank
  simp [skipSpace, isBreak_of_not_isSpace h.not_isSpace, h.not_comment, h.not_byteOrderMark, hblank]

/-- A line break makes room for a key. -/
theorem skipSpace_lineFeed (rest : List Char) (mark : Mark) (keyAllowed : Bool) :
    skipSpace false ('\n' :: rest) mark keyAllowed false =
      skipSpace false rest (mark.after '\n') true false := by
  simp [skipSpace]

end Lexer

/-! ## The end of a value -/

/-- What may come on the line after a value that is indented by `margin`: nothing
at all, or a token in a column to the left of it. -/
inductive EndsBefore (margin : Nat) : List Char → Prop where
  | nothing : EndsBefore margin []
  | line {column : Nat} {c : Char} {rest : List Char} (hcolumn : column < margin)
      (hc : Lexer.BeginsToken c) : EndsBefore margin (spaces column ++ c :: rest)

theorem EndsBefore.mono {inner outer : Nat} {tail : List Char} (h : EndsBefore inner tail)
    (hle : inner ≤ outer) : EndsBefore outer tail := by
  cases h with
  | nothing => exact .nothing
  | line hcolumn hc => exact .line (by omega) hc

/-- The cursor at the next token, from the start of a line. -/
def nextToken (tail : List Char) (mark : Mark) : Cursor :=
  (Lexer.skipSpace false tail mark true false).1

@[simp]
theorem nextToken_nil (mark : Mark) : nextToken [] mark = ⟨[], mark⟩ := rfl

@[simp]
theorem nextToken_line (column : Nat) {c : Char} (hc : Lexer.BeginsToken c) (rest : List Char)
    (mark : Mark) :
    nextToken (spaces column ++ c :: rest) mark = ⟨c :: rest, mark.indent column⟩ := by
  rw [nextToken, Lexer.skipSpace_spaces, Lexer.skipSpace_of_beginsToken hc]

/-- At the next token there is no more white space. -/
theorem EndsBefore.skipSpace_nextToken {margin : Nat} {tail : List Char}
    (h : EndsBefore margin tail) (mark : Mark) (keyAllowed : Bool) :
    Lexer.skipSpace false (nextToken tail mark).rest (nextToken tail mark).mark keyAllowed false =
      (nextToken tail mark, keyAllowed) := by
  cases h with
  | nothing => rfl
  | line hcolumn hc =>
    rw [nextToken_line _ hc]
    exact Lexer.skipSpace_of_beginsToken hc _ _ _

theorem EndsBefore.skipSpace_eq {margin : Nat} {tail : List Char} (h : EndsBefore margin tail)
    (mark : Mark) :
    Lexer.skipSpace false tail mark true false = (nextToken tail mark, true) := by
  cases h with
  | nothing => rfl
  | line hcolumn hc =>
    rw [nextToken_line _ hc, Lexer.skipSpace_spaces, Lexer.skipSpace_of_beginsToken hc]

end Telemetry.Yaml
