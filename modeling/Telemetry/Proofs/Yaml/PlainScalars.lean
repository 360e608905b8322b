import Telemetry.Proofs.Yaml.Places

/-!
# Plain scalars read back

A text that is written without quotes has no place where a reader would stop: no
colon in front of white space, no comment, no line break, and nothing at its
front that begins another token.  So reading takes all of it, up to the colon
behind a name or the line break behind a value.
-/

namespace Telemetry.Yaml

open Value (spaces)

/-- A text that reads as itself when it is written without quotes. -/
structure ReadsPlain (text : List Char) : Prop where
  ne_nil : text ≠ []
  printable : ∀ c ∈ text, isPrintable c = true
  accepted : Style.refusesPlain text = false

theorem Style.readsPlain_of_ofText {text : List Char} (h : ofText text = .plain) :
    ReadsPlain text := by
  rcases ofText_cases text with hquoted | ⟨hprintable, -, hliteral | hsingle | hplain⟩
  · simp [h] at hquoted
  · simp [h] at hliteral
  · simp [h] at hsingle
  · exact ⟨hplain.2.1, hprintable, hplain.2.2⟩

/-! ## Inside the text -/

/-- The rest of a plain text, of which something has been read.  White space in
front of it, if there is any, is `gap`. -/
structure Continues (gap : List Char) (text : List Char) : Prop where
  blanks : ∀ c ∈ text, isSpace c = true → c = ' '
  no_colon : Style.hasPair (· = ':') isSpace text = false
  no_comment : Style.hasPair isSpace (· = '#') text = false
  no_comment_here : gap ≠ [] → text.head? ≠ some '#'
  ends : ∀ c ∈ text.getLast?, isSpace c = false ∧ c ≠ ':'

namespace Continues

variable {gap text suffix : List Char} {c : Char}

theorem tail (h : Continues gap (c :: text)) (hne : text ≠ []) {after : List Char}
    (hafter : after ≠ [] → isSpace c = true) : Continues after text where
  blanks d hd := h.blanks d (List.mem_cons_of_mem c hd)
  no_colon := Style.hasPair_of_cons h.no_colon
  no_comment := Style.hasPair_of_cons h.no_comment
  no_comment_here hgap := by
    obtain ⟨d, rest, rfl⟩ := List.exists_cons_of_ne_nil hne
    have := Style.not_pair_of_cons h.no_comment (hafter hgap)
    simpa using this
  ends d hd := h.ends d (by rwa [List.getLast?_cons_of_ne_nil hne])

/-- A colon in the text is not followed by white space. -/
theorem not_atSpace_of_colon (h : Continues gap (':' :: text)) :
    atSpace (text ++ suffix) = false := by
  cases text with
  | nil => exact absurd rfl (h.ends ':' rfl).2
  | cons d text => exact Style.not_pair_of_cons h.no_colon rfl

end Continues

namespace Plain

variable {margin : Nat} {mark : Mark} {text suffix read gap : List Char}

theorem scan_space (gap : Gap) :
    scan false margin (' ' :: suffix) mark read gap =
      scan false margin suffix (mark.after ' ') read (gap.push ' ') := by
  rw [scan, if_pos isSpace_space, if_neg (by simp)]

theorem not_isOver {c : Char} (h : Continues gap (c :: text)) (hspace : isSpace c = false)
    (hmargin : gap = [] ∨ margin ≤ mark.column)
    (hmarker : mark.column = 0 → atDocumentMarker (c :: text ++ suffix) = false) :
    isOver false margin mark.column (.blanks gap) c (text ++ suffix) = false := by
  have hcomment : gap ≠ [] → c ≠ '#' := fun hgap => by simpa using h.no_comment_here hgap
  have hcolon : c = ':' → atSpace (text ++ suffix) = false := by
    rintro rfl
    exact h.not_atSpace_of_colon
  unfold isOver
  rcases List.eq_nil_or_concat gap with rfl | ⟨_, _, rfl⟩
  · by_cases hcolumn : mark.column = 0 <;> by_cases hc : c = ':' <;>
      simp_all [Gap.isEmpty]
  · have hle : margin ≤ mark.column := hmargin.resolve_left (by simp)
    by_cases hcolumn : mark.column = 0 <;> by_cases hc : c = ':' <;>
      simp_all [Gap.isEmpty]

/-- Reading goes through the whole text. -/
theorem scan_text (h : Continues gap text) (hne : text ≠ [])
    (hnext : margin ≤ mark.column + 1) (hmargin : gap = [] ∨ margin ≤ mark.column)
    (hmarker : mark.column = 0 → atDocumentMarker (text ++ suffix) = false) :
    scan false margin (text ++ suffix) mark read (.blanks gap) =
      scan false margin suffix (mark.past text) (text.reverse ++ gap ++ read) .empty := by
  induction text generalizing mark read gap with
  | nil => exact absurd rfl hne
  | cons c text ih =>
    by_cases hspace : isSpace c = true
    · obtain rfl := h.blanks c List.mem_cons_self hspace
      have htext : text ≠ [] := by
        rintro rfl
        exact absurd (h.ends ' ' rfl).1 (by decide)
      have hcolumn := mark.column_after_pos isBreak_space
      have hstep : (mark.after ' ').column = mark.column + 1 := by
        rw [mark.after_of_not_isBreak isBreak_space]
      rw [List.cons_append, scan_space, Gap.push_space_blanks,
        ih (h.tail htext fun _ => rfl) htext (by omega) (.inr (by omega)) (by omega)]
      simp
    · rw [Bool.not_eq_true] at hspace
      have hbreak := isBreak_of_not_isSpace hspace
      have hcolumn := mark.column_after_pos hbreak
      have hstep : (mark.after c).column = mark.column + 1 := by
        rw [mark.after_of_not_isBreak hbreak]
      have hover := not_isOver h hspace hmargin hmarker
      rw [List.cons_append, scan, if_neg (by simp [hspace]), if_neg (by simp [hover])]
      simp only [Bool.false_and, Bool.false_eq_true, if_false, Gap.folded]
      by_cases htext : text = []
      · simp [htext]
      · have hrest : Continues [] text := h.tail htext fun hgap => absurd rfl hgap
        rw [Gap.empty, ih hrest htext (by omega) (.inl rfl) (by omega)]
        simp [Gap.empty]

/-- A colon in front of white space ends a name. -/
theorem scan_colon (hafter : atSpace suffix = true) :
    scan false margin (':' :: suffix) mark read .empty =
      .ok (read.reverse, false, ⟨':' :: suffix, mark⟩) := by
  rw [scan, if_neg (by decide), if_pos (by simp [isOver, hafter])]
  rfl

theorem scan_spaces (count : Nat) (first : Option Char) (others : List Char) :
    scan false margin (spaces count ++ suffix) mark read (.lines first others) =
      scan false margin suffix (mark.indent count) read (.lines first others) := by
  induction count generalizing mark with
  | zero => rfl
  | succ count ih =>
    rw [spaces_succ, List.cons_append, scan_space, Gap.push_space_lines, ih,
      Mark.indent_after_space]

/-- A line break ends a value, unless the next line is indented as far. -/
theorem scan_lineFeed {tail : List Char} (h : EndsBefore margin tail) :
    scan false margin ('\n' :: tail) mark read .empty =
      .ok (read.reverse, true, nextToken tail (mark.after '\n')) := by
  have hbegin : (mark.after '\n').column = 0 := by rw [mark.after_of_isBreak isBreak_lineFeed]
  rw [scan, if_pos isSpace_lineFeed, if_neg (by simp), Gap.empty,
    Gap.push_break_blanks isBreak_lineFeed]
  cases h with
  | nothing => rfl
  | @line column c rest hmargin hc =>
    rw [nextToken_line _ hc, scan_spaces, scan, if_neg (by simp [hc.not_isSpace]), if_pos]
    · rfl
    · simp [isOver, Gap.isEmpty, hbegin, hmargin]

end Plain

/-! ## The front of the text -/

theorem atSpace_append {text : List Char} (h : atSpace text = false) (suffix : List Char) :
    atSpace (text ++ suffix) = false := by
  cases text with
  | nil => cases h
  | cons c text => exact h

theorem take_of_atMarker {marker : Char} {text : List Char} (h : atMarker marker text = true) :
    text.take 3 = [marker, marker, marker] := by
  match text with
  | a :: b :: c :: rest =>
    simp only [atMarker, Bool.and_eq_true, decide_eq_true_eq] at h
    simp [h]

/-- No marker is put together from a text and what follows it. -/
theorem not_atMarker_append {marker : Char} {text suffix : List Char}
    (htext : text.take 3 ≠ [marker, marker, marker]) (hsuffix : marker ∉ suffix.head?) :
    atMarker marker (text ++ suffix) = false := by
  by_contra h
  have htake := take_of_atMarker (Bool.not_eq_false _ ▸ h)
  by_cases hlength : 3 ≤ text.length
  · rw [List.take_append_of_le_length hlength] at htake
    exact htext htake
  · have hfirst : (text ++ suffix)[text.length]? = some marker := by
      rw [← List.getElem?_take_of_lt (show text.length < 3 by omega), htake]
      match text with
      | [] | [_] | [_, _] => rfl
      | _ :: _ :: _ :: _ => simp at hlength
    rw [List.getElem?_append_right le_rfl, Nat.sub_self, ← List.head?_eq_getElem?] at hfirst
    exact hsuffix hfirst

namespace Style

theorem take_ne_of_not_markup {marker : Char} {text : List Char}
    (h : beginsLikeMarkup text = false) (hmarker : marker = '-' ∨ marker = '.') :
    text.take 3 ≠ [marker, marker, marker] := by
  intro htake
  cases text with
  | nil => cases htake
  | cons c text =>
    rw [List.take_succ_cons] at htake
    simp only [beginsLikeMarkup, htake, Bool.or_eq_false_iff] at h
    rcases hmarker with rfl | rfl
    · exact absurd h.2 (by decide)
    · exact absurd h.2 (by decide)

theorem not_marker_of_not_markup {text suffix : List Char} (h : beginsLikeMarkup text = false)
    (hsuffix : ∀ c ∈ suffix.head?, c ≠ '-' ∧ c ≠ '.') :
    atDocumentMarker (text ++ suffix) = false := by
  rw [atDocumentMarker,
    not_atMarker_append (take_ne_of_not_markup h (.inl rfl)) fun hc => (hsuffix _ hc).1 rfl,
    not_atMarker_append (take_ne_of_not_markup h (.inr rfl)) fun hc => (hsuffix _ hc).2 rfl]
  rfl

end Style

theorem Lexer.beginsPlain_of_not_markup {c : Char} {text suffix : List Char}
    (h : Style.beginsLikeMarkup (c :: text) = false) (hspace : isSpace c = false)
    (hcolon : c = ':' → atSpace (text ++ suffix) = false) :
    beginsPlain false c (text ++ suffix) = true := by
  simp only [Style.beginsLikeMarkup, Bool.or_eq_false_iff, Bool.and_eq_false_iff] at h
  obtain ⟨⟨hindicator, hquery⟩, -⟩ := h
  have hmark (hc : c = '-' ∨ c = '?') : atSpace (text ++ suffix) = false := by
    apply atSpace_append
    rcases hc with rfl | rfl <;> simpa using hquery
  by_cases hminus : c = '-'
  · simp [beginsPlain, hminus, hmark (.inl hminus)]
  · by_cases hquestion : c = '?'
    · simp [beginsPlain, hquestion, hmark (.inr hquestion)]
    · by_cases hc : c = ':'
      · simp [beginsPlain, hc, hcolon hc]
      · simp only [beginsPlain, hminus, hquestion, hc, if_false, hspace]
        simp_all

namespace ReadsPlain

variable {text suffix : List Char}

/-- What `refusesPlain` looks at, one by one. -/
theorem not_markup (h : ReadsPlain text) : Style.beginsLikeMarkup text = false := by
  have haccepted := h.accepted
  simp only [Style.refusesPlain, Bool.or_eq_false_iff] at haccepted
  tauto

theorem not_isBreak (h : ReadsPlain text) {c : Char} (hc : c ∈ text) : isBreak c = false := by
  have haccepted := h.accepted
  simp only [Style.refusesPlain, Bool.or_eq_false_iff, List.any_eq_false] at haccepted
  simpa using haccepted.2 c hc

theorem isSpace_eq_space (h : ReadsPlain text) {c : Char} (hc : c ∈ text)
    (hspace : isSpace c = true) : c = ' ' := by
  have hbreak := h.not_isBreak hc
  have hprintable := h.printable c hc
  simp only [isSpace, isBlank, Bool.or_eq_true, decide_eq_true_eq] at hspace
  rcases hspace with (rfl | rfl) | hspace
  · rfl
  · exact absurd hprintable (by decide)
  · simp [hbreak] at hspace

theorem continues (h : ReadsPlain text) : Continues [] text := by
  have haccepted := h.accepted
  simp only [Style.refusesPlain, Bool.or_eq_false_iff, decide_eq_false_iff_not] at haccepted
  obtain ⟨⟨⟨⟨⟨⟨-, -⟩, hlast⟩, hcolon⟩, hlastColon⟩, hcomment⟩, -⟩ := haccepted
  refine ⟨fun c hc => h.isSpace_eq_space hc, hcolon, hcomment, fun hne => absurd rfl hne, ?_⟩
  intro c hc
  have hmem := List.mem_of_getLast? hc
  refine ⟨?_, fun heq => hlastColon (heq ▸ hc)⟩
  by_contra hspace
  rw [Bool.not_eq_false] at hspace
  exact hlast (h.isSpace_eq_space hmem hspace ▸ hc)

/-- The first character begins a token. -/
theorem exists_cons (h : ReadsPlain text) :
    ∃ c rest, text = c :: rest ∧ Lexer.BeginsToken c := by
  obtain ⟨c, rest, rfl⟩ := List.exists_cons_of_ne_nil h.ne_nil
  refine ⟨c, rest, rfl, ?_, ?_, ?_⟩
  · by_contra hspace
    rw [Bool.not_eq_false] at hspace
    have haccepted := h.accepted
    simp [Style.refusesPlain, h.isSpace_eq_space List.mem_cons_self hspace] at haccepted
  · rintro rfl
    have haccepted := h.not_markup
    simp [Style.beginsLikeMarkup] at haccepted
  · rintro rfl
    exact absurd (h.printable _ List.mem_cons_self) (by decide)

theorem beginsPlain {c : Char} {rest : List Char} (h : ReadsPlain (c :: rest)) :
    Lexer.beginsPlain false c (rest ++ suffix) = true := by
  obtain ⟨_, _, heq, hc⟩ := h.exists_cons
  cases heq
  apply Lexer.beginsPlain_of_not_markup h.not_markup hc.not_isSpace
  rintro rfl
  exact h.continues.not_atSpace_of_colon

end ReadsPlain

end Telemetry.Yaml
