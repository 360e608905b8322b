import Telemetry.Proofs.Yaml.Places

/-!
# Literal blocks read back

A text of several lines is written line by line behind a header.  The header says
how far the lines are indented, where the first of them does not show it, and
what becomes of the breaks at the end.
-/

namespace Telemetry.Yaml

open Value (spaces indentLines)

theorem Style.ne_nil_of_ofText {text : List Char} (h : ofText text = .literal) : text ≠ [] := by
  rintro rfl
  exact absurd h (by decide)

namespace Block

/-! ## Lines -/

/-- Everything that has been read, latest character first. -/
def Lines.soFar (lines : Lines) : List Char :=
  lines.empties ++ lines.pending.toList ++ lines.text

/-- What the lines hold after the text `read`, which has its latest character first. -/
structure Lines.Holds (lines : Lines) (read : List Char) : Prop where
  soFar : lines.soFar = read
  inLine : lines.inLine = (read.head?.map (!isBreak ·)).getD false
  in_text : lines.inLine = true → lines.pending = none ∧ lines.empties = []
  ended : ∀ b c rest, read = b :: c :: rest → isBreak c = false → lines.empties = []

namespace Lines.Holds

variable {lines : Lines} {read : List Char} {c : Char}

theorem init : Lines.Holds {} [] where
  soFar := rfl
  inLine := rfl
  in_text h := by cases h
  ended _ _ _ h := by cases h

theorem text_eq (h : lines.Holds read) (hin : lines.inLine = true) : lines.text = read := by
  obtain ⟨hpending, hempties⟩ := h.in_text hin
  simpa [Lines.soFar, hpending, hempties] using h.soFar

/-- A break ends the line. -/
theorem endLine (h : lines.Holds read) (hin : lines.inLine = true) (hc : isBreak c = true) :
    Lines.Holds { lines with pending := some c, inLine := false } (c :: read) where
  soFar := by simp [Lines.soFar, (h.in_text hin).2, h.text_eq hin]
  inLine := by simp [hc]
  in_text hin := by cases hin
  ended _ _ _ _ _ := (h.in_text hin).2

/-- A break at the start of a line is a line of its own. -/
theorem emptyLine (h : lines.Holds read) (hout : lines.inLine = false) (hc : isBreak c = true) :
    Lines.Holds { lines with empties := c :: lines.empties } (c :: read) where
  soFar := by rw [← h.soFar]; rfl
  inLine := by simp [hout, hc]
  in_text hin := by simp [hout] at hin
  ended b d rest heq hd := by
    obtain ⟨rfl, rfl⟩ := List.cons.inj heq
    simp [h.inLine, hd] at hout

theorem text (h : lines.Holds read) (hin : lines.inLine = true) (hc : isBreak c = false) :
    Lines.Holds { lines with text := c :: lines.text } (c :: read) where
  soFar := by simp [Lines.soFar, h.in_text hin, h.text_eq hin]
  inLine := by simp [hin, hc]
  in_text _ := h.in_text hin
  ended _ _ _ _ _ := (h.in_text hin).2

theorem beginLine (h : lines.Holds read) (hc : isBreak c = false) :
    (lines.beginLine true c).Holds (c :: read) where
  soFar := by rw [← h.soFar]; rfl
  inLine := by simp [Lines.beginLine, hc]
  in_text _ := ⟨rfl, rfl⟩
  ended _ _ _ _ _ := rfl

end Lines.Holds

section Lines

variable {chomping : Chomping} {indent : Nat} {mark : Mark} {lines : Lines}
  {read text rest tail : List Char}

/-- The indentation of a line is passed over. -/
theorem scanLines_spaces {count : Nat} (hout : lines.inLine = false)
    (hcount : mark.column + count ≤ indent) :
    scanLines true chomping indent (spaces count ++ rest) mark lines =
      scanLines true chomping indent rest (mark.indent count) lines := by
  induction count generalizing mark with
  | zero => rfl
  | succ count ih =>
    have hcolumn : (mark.after ' ').column = mark.column + 1 := by
      rw [mark.after_of_not_isBreak isBreak_space]
    have hlt : mark.column < indent := by omega
    rw [spaces_succ, List.cons_append, scanLines]
    simp only [hout, Bool.false_eq_true, if_false, hlt, decide_true, Bool.and_self, if_true]
    rw [ih (by omega), Mark.indent_after_space]

theorem scanLines_break (chomping : Chomping) (indent : Nat) (mark : Mark) {c : Char}
    (h : lines.Holds read) (hc : isBreak c = true) :
    ∃ lines' : Lines, lines'.Holds (c :: read) ∧ ∀ rest,
      scanLines true chomping indent (c :: rest) mark lines =
        scanLines true chomping indent rest (mark.after c) lines' := by
  have hspace : c ≠ ' ' := by rintro rfl; cases hc
  have htab : c ≠ '\t' := by rintro rfl; cases hc
  cases hin : lines.inLine with
  | true => exact ⟨_, h.endLine hin hc, fun _ => by rw [scanLines]; simp [hin, hc]⟩
  | false =>
    exact ⟨_, h.emptyLine hin hc, fun _ => by rw [scanLines]; simp [hin, hc, hspace, htab]⟩

theorem scanLines_text_char (chomping : Chomping) {c : Char} (h : lines.Holds read)
    (hc : isBreak c = false) (hplace : lines.inLine = false → mark.column = indent) :
    ∃ lines' : Lines, lines'.Holds (c :: read) ∧ ∀ rest,
      scanLines true chomping indent (c :: rest) mark lines =
        scanLines true chomping indent rest (mark.after c) lines' := by
  cases hin : lines.inLine with
  | true => exact ⟨_, h.text hin hc, fun _ => by rw [scanLines]; simp [hin, hc]⟩
  | false => exact ⟨_, h.beginLine hc, fun _ => by rw [scanLines]; simp [hin, hc, hplace hin]⟩

/-- Where a line of text begins its indentation is passed over. -/
theorem scanLines_indentation (chomping : Chomping) (indent : Nat)
    (hcolumn : lines.inLine = false → mark.column = 0) :
    ∃ mark' : Mark, (lines.inLine = false → mark'.column = indent) ∧ ∀ rest,
      scanLines true chomping indent ((if !lines.inLine then spaces indent else []) ++ rest) mark
          lines =
        scanLines true chomping indent rest mark' lines := by
  cases hin : lines.inLine with
  | true => exact ⟨mark, by simp, fun _ => rfl⟩
  | false =>
    have hzero := hcolumn hin
    exact ⟨mark.indent indent, by simp [hzero], fun _ => scanLines_spaces hin (by omega)⟩

/-- One character of the text, with the indentation that its line may begin with. -/
theorem scanLines_step (chomping : Chomping) (indent : Nat) (c : Char) (h : lines.Holds read)
    (hcolumn : lines.inLine = false → mark.column = 0) :
    ∃ (lines' : Lines) (mark' : Mark), lines'.Holds (c :: read) ∧
      (lines'.inLine = false → mark'.column = 0) ∧ ∀ text rest,
        scanLines true chomping indent (indentLines indent (!lines.inLine) (c :: text) ++ rest) mark
            lines =
          scanLines true chomping indent (indentLines indent (!lines'.inLine) text ++ rest) mark'
            lines' := by
  by_cases hc : isBreak c = true
  · obtain ⟨lines', hlines', hstep⟩ := scanLines_break chomping indent mark h hc
    have hin : lines'.inLine = false := by simp [hlines'.inLine, hc]
    have hzero : (mark.after c).column = 0 := by rw [mark.after_of_isBreak hc]
    refine ⟨lines', mark.after c, hlines', fun _ => hzero, fun text rest => ?_⟩
    rw [indentLines, if_pos hc, List.cons_append, hstep, hin, Bool.not_false]
  · rw [Bool.not_eq_true] at hc
    obtain ⟨start, hstart, hindentation⟩ := scanLines_indentation chomping indent hcolumn
    obtain ⟨lines', hlines', hstep⟩ := scanLines_text_char chomping h hc hstart
    have hin : lines'.inLine = true := by simp [hlines'.inLine, hc]
    refine ⟨lines', start.after c, hlines', fun hout => by simp [hin] at hout, fun text rest => ?_⟩
    rw [indentLines, if_neg (by simp [hc]), List.append_assoc, List.cons_append, hindentation,
      hstep, hin, Bool.not_true]

/-- Reading goes through the lines of the text. -/
theorem scanLines_text (chomping : Chomping) (indent : Nat) (text rest : List Char)
    (h : lines.Holds read) (hcolumn : lines.inLine = false → mark.column = 0) :
    ∃ (lines' : Lines) (mark' : Mark), lines'.Holds (text.reverse ++ read) ∧
      (lines'.inLine = false → mark'.column = 0) ∧
      scanLines true chomping indent (indentLines indent (!lines.inLine) text ++ rest) mark lines =
        scanLines true chomping indent rest mark' lines' := by
  induction text generalizing lines mark read with
  | nil => exact ⟨lines, mark, h, hcolumn, rfl⟩
  | cons c text ih =>
    obtain ⟨next, place, hnext, hplace, hstep⟩ := scanLines_step chomping indent c h hcolumn
    obtain ⟨lines', mark', hlines', hend, hread⟩ := ih hnext hplace
    exact ⟨lines', mark', by simpa using hlines', hend, (hstep text rest).trans hread⟩

/-- The block ends at the next token, which is to its left. -/
theorem scanLines_end (hout : lines.inLine = false) (hcolumn : mark.column = 0)
    (htail : EndsBefore indent tail) :
    scanLines true chomping indent tail mark lines =
      .ok (lines.finish chomping, nextToken tail mark) := by
  cases htail with
  | nothing => rfl
  | @line column c rest hlt hc =>
    rw [scanLines_spaces hout (by omega), nextToken_line _ hc, scanLines]
    have hblank := hc.not_isSpace
    simp only [isSpace, isBlank, Bool.or_eq_false_iff, decide_eq_false_iff_not] at hblank
    have hne : mark.column + column ≠ indent := by omega
    simp [hout, hblank, hne]

end Lines

/-! ## The end of the text -/

/-- What becomes of the breaks at the end of a text. -/
def chompingOf (text : List Char) : Chomping :=
  match Value.chompingHint text with
  | '-' :: _ => .strip
  | '+' :: _ => .keep
  | _ => .clip

section Ends

variable {lines : Lines} {mark : Mark} {text tail : List Char} {indent : Nat}

theorem finish_keep : lines.finish .keep = lines.soFar.reverse := by
  simp [Lines.finish, Lines.soFar]

theorem finish_clip (h : lines.empties = []) : lines.finish .clip = lines.soFar.reverse := by
  simp [Lines.finish, Lines.soFar, h]

/-- Lines that hold the whole text give it back. -/
theorem finish_eq (h : lines.Holds text.reverse) (hout : lines.inLine = false) (hne : text ≠ []) :
    lines.finish (chompingOf text) = text := by
  obtain ⟨last, others, hreverse⟩ : ∃ last others, text.reverse = last :: others :=
    List.exists_cons_of_ne_nil (by simpa using hne)
  have hlast : isBreak last = true := by simpa [hreverse, hout] using h.inLine
  have hsoFar : lines.soFar.reverse = text := by rw [h.soFar, List.reverse_reverse]
  cases others with
  | nil =>
    have : chompingOf text = .keep := by simp [chompingOf, Value.chompingHint, hreverse, hlast]
    rw [this, finish_keep, hsoFar]
  | cons before others =>
    by_cases hbefore : isBreak before = true
    · have : chompingOf text = .keep := by
        simp [chompingOf, Value.chompingHint, hreverse, hlast, hbefore]
      rw [this, finish_keep, hsoFar]
    · have : chompingOf text = .clip := by
        simp [chompingOf, Value.chompingHint, hreverse, hlast, hbefore]
      rw [this, finish_clip (h.ended _ _ _ hreverse (by simpa using hbefore)), hsoFar]

/-- The break that ends the last line, where the text has none there. -/
def finalBreak (text : List Char) : List Char := if Value.endsInBreak text then [] else ['\n']

/-- Behind the whole text the reader is in a line unless the text ends in a break. -/
theorem endsInBreak_of_holds (h : lines.Holds text.reverse) (hne : text ≠ []) :
    Value.endsInBreak text = !lines.inLine := by
  obtain ⟨others, last, rfl⟩ := List.eq_nil_or_concat' text |>.resolve_left hne
  simp [h.inLine, Value.endsInBreak]

theorem finish_strip (h : lines.Holds text.reverse) (hin : lines.inLine = true) :
    Lines.finish { lines with pending := some '\n', inLine := false } .strip = text := by
  simp [Lines.finish, h.text_eq hin]

theorem chompingOf_of_not_endsInBreak (hne : text ≠ []) (h : Value.endsInBreak text = false) :
    chompingOf text = .strip := by
  obtain ⟨others, last, rfl⟩ := List.eq_nil_or_concat' text |>.resolve_left hne
  have hlast : isBreak last = false := by simpa [Value.endsInBreak] using h
  simp [chompingOf, Value.chompingHint, hlast]

/-- A whole block of lines. -/
theorem scanLines_all (hne : text ≠ []) (hcolumn : mark.column = 0)
    (htail : EndsBefore indent tail) :
    ∃ mark' : Mark, mark'.column = 0 ∧
      scanLines true (chompingOf text) indent
          (indentLines indent true text ++ (finalBreak text ++ tail)) mark {} =
        .ok (text, nextToken tail mark') := by
  obtain ⟨lines, last, hlines, hlast, hread⟩ := scanLines_text (chompingOf text) indent text
    (finalBreak text ++ tail) .init fun _ => hcolumn
  rw [List.append_nil] at hlines
  have hends := endsInBreak_of_holds hlines hne
  cases hin : lines.inLine with
  | false =>
    refine ⟨last, hlast hin, ?_⟩
    have hbreak : finalBreak text = [] := by simp [finalBreak, hends, hin]
    exact hread.trans (by
      rw [hbreak, List.nil_append, scanLines_end hin (hlast hin) htail, finish_eq hlines hin hne])
  | true =>
    have hstrip := chompingOf_of_not_endsInBreak hne (by simp [hends, hin])
    have hbreak : finalBreak text = ['\n'] := by simp [finalBreak, hends, hin]
    have hzero : (last.after '\n').column = 0 := by rw [last.after_of_isBreak isBreak_lineFeed]
    refine ⟨last.after '\n', hzero, hread.trans ?_⟩
    rw [hbreak, List.singleton_append, scanLines, hstrip]
    simp only [hin, if_true, isBreak_lineFeed]
    rw [scanLines_end rfl hzero htail, finish_strip hlines hin]

end Ends

/-! ## The header -/

section Header

variable {text rest tail : List Char} {mark : Mark} {margin indent : Nat}

/-- What stands between the bar and the first line. -/
def hints (text : List Char) : List Char :=
  Value.indentationHint text ++ Value.chompingHint text

theorem indentationHint_cases (text : List Char) :
    Value.indentationHint text = [] ∨ Value.indentationHint text = ['2'] := by
  unfold Value.indentationHint
  split
  · exact .inl rfl
  · split
    · exact .inr rfl
    · exact .inl rfl

theorem chompingHint_cases (text : List Char) :
    Value.chompingHint text = [] ∨ Value.chompingHint text = ['-'] ∨
      Value.chompingHint text = ['+'] := by
  unfold Value.chompingHint
  grind

/-- Reading goes from the header to the first line. -/
theorem scan_hints (text rest : List Char) (mark : Mark) (margin : Nat) :
    ∃ start : Mark, start.column = 0 ∧
      scan true margin ⟨hints text ++ '\n' :: rest, mark⟩ =
        if Value.indentationHint text = [] then do
          let (empties, deepest, cursor) ← leadingLines rest start [] 0
          scanLines true (chompingOf text) (max (max deepest margin) 1) cursor.rest cursor.mark
            { empties }
        else
          scanLines true (chompingOf text) (margin - 1 + 2) rest start {} := by
  have hlineEnd (mark : Mark) :
      (Cursor.mk ('\n' :: rest) mark).skipLineEnd? = some ⟨rest, mark.after '\n'⟩ := rfl
  refine ⟨(mark.past (hints text)).after '\n', by rw [Mark.after_of_isBreak _ isBreak_lineFeed], ?_⟩
  unfold hints chompingOf
  rcases indentationHint_cases text with h | h <;>
    rcases chompingHint_cases text with h' | h' | h' <;>
    rw [h, h'] <;>
    rfl

theorem leadingLines_spaces {count : Nat} {c : Char} (hspace : c ≠ ' ') (htab : c ≠ '\t')
    (hbreak : isBreak c = false) :
    leadingLines (spaces count ++ c :: rest) mark [] 0 =
      .ok ([], mark.column + count, ⟨c :: rest, mark.indent count⟩) := by
  induction count generalizing mark with
  | zero => simp [spaces, leadingLines, hspace, htab, hbreak]
  | succ count ih =>
    rw [spaces_succ, List.cons_append, leadingLines, if_pos rfl, ih, Mark.indent_after_space,
      mark.after_of_not_isBreak isBreak_space]
    simp
    omega

/-- A literal block reads back as its text.  `margin` is one more than the column of
the name in front of it. -/
theorem scan_literal (mark : Mark) (h : Style.ofText text = .literal) (hmargin : 0 < margin)
    (htail : EndsBefore margin tail) :
    ∃ mark' : Mark, mark'.column = 0 ∧
      scan true margin ⟨hints text ++
          '\n' :: (indentLines (margin + 1) true text ++ (finalBreak text ++ tail)), mark⟩ =
        .ok (text, nextToken tail mark') := by
  obtain ⟨start, hstart, hheader⟩ := scan_hints text
    (indentLines (margin + 1) true text ++ (finalBreak text ++ tail)) mark margin
  have hne := Style.ne_nil_of_ofText h
  obtain ⟨mark', hcolumn, hlines⟩ := scanLines_all hne hstart (htail.mono (Nat.le_succ _))
  refine ⟨mark', hcolumn, ?_⟩
  rw [hheader]
  split
  · next hhint =>
    obtain ⟨c, more, rfl⟩ := List.exists_cons_of_ne_nil hne
    have hc : c ≠ ' ' ∧ isBreak c = false := by
      simpa [Value.indentationHint] using hhint
    have htab : c ≠ '\t' := by
      rintro rfl
      have hprintable := Style.isPrintable_of_ofText (c := '\t') (by rw [h]; decide)
        List.mem_cons_self
      exact absurd hprintable (by decide)
    rw [indentLines, if_neg (by simp [hc.2]), if_pos rfl, List.append_assoc, List.cons_append]
      at hlines ⊢
    rw [leadingLines_spaces hc.1 htab hc.2, ← hlines, scanLines_spaces rfl (by omega)]
    have hindent : max (max (start.column + (margin + 1)) margin) 1 = margin + 1 := by omega
    change scanLines true (chompingOf (c :: more))
      (max (max (start.column + (margin + 1)) margin) 1) _ _ _ = _
    rw [hindent]
  · rw [show margin - 1 + 2 = margin + 1 by omega, hlines]

end Header

end Block

/-! ## What is written -/

namespace Value

theorem endsInBreak_append {front back : List Char} (h : back ≠ []) :
    endsInBreak (front ++ back) = endsInBreak back := by
  rw [endsInBreak, List.getLast?_append_of_ne_nil _ h, endsInBreak]

theorem indentLines_ne_nil {text : List Char} (h : text ≠ []) (indent : Nat) (lineBegins : Bool) :
    indentLines indent lineBegins text ≠ [] := by
  obtain ⟨c, text, rfl⟩ := List.exists_cons_of_ne_nil h
  rw [indentLines]
  split <;> simp

/-- Indentation goes in front of lines only. -/
theorem endsInBreak_indentLines {text : List Char} (h : text ≠ []) (indent : Nat)
    (lineBegins : Bool) : endsInBreak (indentLines indent lineBegins text) = endsInBreak text := by
  induction text generalizing lineBegins with
  | nil => exact absurd rfl h
  | cons c text ih =>
    have hstep (lineBegins : Bool) : endsInBreak (c :: indentLines indent lineBegins text) =
        endsInBreak (c :: text) := by
      by_cases htext : text = []
      · subst htext
        rfl
      · rw [← List.singleton_append, endsInBreak_append (indentLines_ne_nil htext _ _),
          ih htext, ← List.singleton_append, endsInBreak_append htext]
    rw [indentLines]
    split
    · exact hstep true
    · rw [endsInBreak_append (List.cons_ne_nil _ _)]
      exact hstep false

/-- A literal block as it is written, its last line ended. -/
theorem endLine_literal {text : List Char} (h : text ≠ []) (indent : Nat) :
    endLine (literal indent text) =
      '|' :: (Block.hints text ++
        '\n' :: (indentLines indent true text ++ Block.finalBreak text)) := by
  have hends : endsInBreak (literal indent text) = endsInBreak text := by
    rw [literal, endsInBreak_append (List.cons_ne_nil _ _), ← List.singleton_append,
      endsInBreak_append (indentLines_ne_nil h _ _), endsInBreak_indentLines h]
  rw [endLine, hends, Block.finalBreak, literal, Block.hints]
  split <;> simp

end Value

end Telemetry.Yaml
