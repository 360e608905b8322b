import Telemetry.Proofs.Yaml.Places

/-!
# Quoted scalars read back

Between quotation marks every character stands for itself or is escaped, and no
line break is written, so reading back goes one character at a time.  Between
apostrophes the only line breaks are separators, which are not folded; what has
to be kept apart from the text is the indentation behind them.
-/

namespace Telemetry.Yaml

open Value (spaces)

/-! ## Between quotation marks -/

/-- How a character is written between quotation marks. -/
inductive Escape (c : Char) : List Char → Prop where
  | itself (hprintable : isPrintable c = true) (hbreak : isBreak c = false) (hquote : c ≠ '"')
      (hescape : c ≠ '\\') : Escape c [c]
  | letter {d : Char} (hd : Quoted.shortEscape? d = some c) (hbreak : isBreak d = false)
      (hprintable : isPrintable d = true) : Escape c ['\\', d]
  | code {d : Char} (width : Nat) (hd : Quoted.codeDigits? d = some (width + 1))
      (hletter : Quoted.shortEscape? d = none) (hbreak : isBreak d = false)
      (hprintable : isPrintable d = true) (hwidth : c.toNat < 16 ^ (width + 1)) :
      Escape c ('\\' :: d :: Value.codeDigits (width + 1) c.toNat)

theorem toNat_lt (c : Char) : c.toNat < 0xD800 ∨ 0xDFFF < c.toNat ∧ c.toNat < 0x110000 := c.valid

theorem eq_ofNat {c : Char} {code : Nat} (h : c.toNat = code) : c = Char.ofNat code := by
  rw [← h, Char.ofNat_toNat]

theorem escape_escaped (c : Char) : Escape c (Value.escaped c) := by
  unfold Value.escaped
  split
  · exact .letter rfl rfl rfl
  · exact .letter rfl rfl rfl
  · next hquote hescape =>
    split
    · next h =>
      simp only [Bool.and_eq_true, Bool.not_eq_true'] at h
      exact .itself h.1 h.2 hquote hescape
    · dsimp only
      split
      case h_13 =>
        split
        · exact .code (d := 'x') 1 rfl rfl rfl rfl (by omega)
        · split
          · exact .code (d := 'u') 3 rfl rfl rfl rfl (by omega)
          · have := toNat_lt c
            exact .code (d := 'U') 7 rfl rfl rfl rfl (by omega)
      all_goals
        next h =>
          rw [eq_ofNat h]
          exact .letter rfl rfl rfl

namespace Quoted

variable {mark : Mark} {read rest : List Char} {gap : Gap}

theorem digitValue?_toUpper_digit {value : Nat} (h : value < 16) :
    Hex.digitValue? (Hex.digit value).toUpper = some value := by
  revert value
  decide

theorem codeDigits_succ (width code : Nat) :
    Value.codeDigits (width + 1) code =
      (Hex.digit (code / 16 ^ width % 16)).toUpper :: Value.codeDigits width code := by
  rw [Value.codeDigits, List.range_succ, List.reverse_append, List.reverse_singleton,
    List.singleton_append, List.map_cons, Nat.shiftRight_eq_div_pow, Nat.pow_mul]
  rfl

theorem ofCode?_toNat (c : Char) : ofCode? c.toNat = some c := by
  rw [ofCode?, if_pos, Char.ofNat_toNat]
  have := toNat_lt c
  omega

theorem isBreak_toUpper_digit {value : Nat} (h : value < 16) :
    isBreak (Hex.digit value).toUpper = false := by
  revert value
  decide

/-- The digits of a code are read one by one, most significant first. -/
theorem double_codeDigits (mark : Mark) (read rest : List Char) (gap : Gap) {c : Char}
    {width value code : Nat}
    (h : ofCode? (value * 16 ^ (width + 1) + code % 16 ^ (width + 1)) = some c) :
    ∃ mark' : Mark, 0 < mark'.column ∧
      double (Value.codeDigits (width + 1) code ++ rest) mark read gap (some (width + 1, value)) =
        double rest mark' (c :: read) gap none := by
  induction width generalizing mark value with
  | zero =>
    have hdigit : code % 16 < 16 := Nat.mod_lt _ (by decide)
    refine ⟨_, mark.column_after_pos (isBreak_toUpper_digit hdigit), ?_⟩
    rw [codeDigits_succ]
    simp only [Nat.zero_add, Nat.pow_one] at h
    simp [Value.codeDigits, double, digitValue?_toUpper_digit hdigit, h]
  | succ width ih =>
    have hdigit : code / 16 ^ (width + 1) % 16 < 16 := Nat.mod_lt _ (by decide)
    have hvalue : (value * 16 + code / 16 ^ (width + 1) % 16) * 16 ^ (width + 1) +
        code % 16 ^ (width + 1) = value * 16 ^ (width + 2) + code % 16 ^ (width + 2) := by
      rw [Nat.pow_succ 16 (width + 1), Nat.mod_mul]
      ring
    obtain ⟨mark', hcolumn, hread⟩ := ih
      (mark.after (Hex.digit (code / 16 ^ (width + 1) % 16)).toUpper) (hvalue ▸ h)
    refine ⟨mark', hcolumn, ?_⟩
    rw [← hread, codeDigits_succ]
    simp [double, digitValue?_toUpper_digit hdigit]

theorem double_space {c : Char} (h : isSpace c = true) :
    double (c :: rest) mark read gap none = double rest (mark.after c) read (gap.push c) none := by
  rw [double.eq_def]
  simp [h]

theorem double_itself {c : Char} (hcolumn : 0 < mark.column) (hspace : isSpace c = false)
    (hquote : c ≠ '"') (hescape : c ≠ '\\') :
    double (c :: rest) mark read gap none =
      double rest (mark.after c) (c :: (gap.folded ++ read)) .empty none := by
  have hcolumn : mark.column ≠ 0 := by omega
  rw [double.eq_def]
  simp [hspace, hquote, hescape, hcolumn]

theorem double_close (hcolumn : 0 < mark.column) :
    double ('"' :: rest) mark read gap none =
      .ok ((gap.folded ++ read).reverse, ⟨rest, mark.after '"'⟩) := by
  have hcolumn : mark.column ≠ 0 := by omega
  rw [double.eq_def]
  simp [hcolumn, show isSpace '"' = false from rfl]

theorem double_letter {c d : Char} (hcolumn : 0 < mark.column) (hbreak : isBreak d = false)
    (hd : shortEscape? d = some c) :
    double ('\\' :: d :: rest) mark read gap none =
      double rest ((mark.after '\\').after d) (c :: (gap.folded ++ read)) .empty none := by
  have hcolumn : mark.column ≠ 0 := by omega
  rw [double.eq_def]
  simp [hcolumn, hbreak, hd, show isSpace '\\' = false from rfl]

theorem double_code {d : Char} {width : Nat} (hcolumn : 0 < mark.column)
    (hbreak : isBreak d = false) (hletter : shortEscape? d = none)
    (hd : codeDigits? d = some width) :
    double ('\\' :: d :: rest) mark read gap none =
      double rest ((mark.after '\\').after d) (gap.folded ++ read) .empty (some (width, 0)) := by
  have hcolumn : mark.column ≠ 0 := by omega
  rw [double.eq_def]
  simp [hcolumn, hbreak, hletter, hd, show isSpace '\\' = false from rfl]

/-- One character, however it is written.  What has been read is `read` and the
spaces that wait in front of the next character. -/
theorem double_escape (read run rest : List Char) {c : Char} {written : List Char}
    (h : Escape c written)
    (hcolumn : 0 < mark.column) :
    ∃ (mark' : Mark) (read' run' : List Char), 0 < mark'.column ∧
      run' ++ read' = c :: (run ++ read) ∧
      double (written ++ rest) mark read (.blanks run) none =
        double rest mark' read' (.blanks run') none := by
  cases h with
  | itself hprintable hbreak hquote hescape =>
    by_cases hspace : isSpace c = true
    · have hblank : (Gap.blanks run).push c = .blanks (c :: run) := by simp [Gap.push, hbreak]
      refine ⟨mark.after c, read, c :: run, mark.column_after_pos hbreak, rfl, ?_⟩
      rw [List.singleton_append, double_space hspace, hblank]
    · rw [Bool.not_eq_true] at hspace
      refine ⟨mark.after c, c :: (run ++ read), [], mark.column_after_pos hbreak, rfl, ?_⟩
      exact double_itself hcolumn hspace hquote hescape
  | @letter d hd hbreak _ =>
    refine ⟨_, c :: (run ++ read), [], Mark.column_after_pos (mark.after '\\') hbreak, rfl, ?_⟩
    exact double_letter hcolumn hbreak hd
  | @code d width hd hletter hbreak _ hwidth =>
    have hcode : ofCode? (0 * 16 ^ (width + 1) + c.toNat % 16 ^ (width + 1)) = some c := by
      rw [Nat.zero_mul, Nat.zero_add, Nat.mod_eq_of_lt hwidth, ofCode?_toNat]
    obtain ⟨mark', hcolumn', hread⟩ := double_codeDigits ((mark.after '\\').after d)
      (run ++ read) rest .empty hcode
    refine ⟨mark', c :: (run ++ read), [], hcolumn', rfl, ?_⟩
    rw [List.cons_append, List.cons_append, double_code hcolumn hbreak hletter hd,
      Gap.folded_blanks, hread, Gap.empty]

/-- Reading goes through the whole text, to the mark that closes it. -/
theorem double_text (text read run rest : List Char) (hcolumn : 0 < mark.column) :
    ∃ mark' : Mark,
      double (text.flatMap Value.escaped ++ '"' :: rest) mark read (.blanks run) none =
        .ok ((run ++ read).reverse ++ text, ⟨rest, mark'⟩) := by
  induction text generalizing mark read run with
  | nil =>
    refine ⟨mark.after '"', ?_⟩
    rw [List.flatMap_nil, List.nil_append, double_close hcolumn]
    simp
  | cons c text ih =>
    obtain ⟨mark', read', run', hcolumn', hread, hstep⟩ := double_escape read run
      (text.flatMap Value.escaped ++ '"' :: rest) (escape_escaped c) hcolumn
    obtain ⟨last, hlast⟩ := ih read' run' hcolumn'
    refine ⟨last, ?_⟩
    rw [List.flatMap_cons, List.append_assoc, hstep, hlast, hread]
    simp

end Quoted

/-! ## Between apostrophes -/

/-- The rest of a text that can stand between apostrophes.  `lineBegins` says that a
line break is in front of it, and `run` are the spaces in front of it. -/
structure FitsSingle (lineBegins : Bool) (run : List Char) (text : List Char) : Prop where
  spaces : ∀ c ∈ text, isSpace c = true → c = ' ' ∨ isBreak c = true ∧ c ≠ '\n'
  no_space_break : Style.hasPair (· = ' ') isBreak text = false
  no_break_space : Style.hasPair isBreak (· = ' ') text = false
  no_break_here : run ≠ [] → ∀ c ∈ text.head?, isBreak c = false
  no_space_here : lineBegins = true → ' ' ∉ text.head?

namespace FitsSingle

variable {lineBegins : Bool} {run text : List Char} {c : Char}

theorem tail (h : FitsSingle lineBegins run (c :: text)) {after : List Char}
    (hafter : after ≠ [] → c = ' ') : FitsSingle (isBreak c) after text where
  spaces d hd := h.spaces d (List.mem_cons_of_mem c hd)
  no_space_break := Style.hasPair_of_cons h.no_space_break
  no_break_space := Style.hasPair_of_cons h.no_break_space
  no_break_here hne d hd := by
    obtain ⟨rest, rfl⟩ : ∃ rest, text = d :: rest := by
      cases text <;> simp_all
    exact Style.not_pair_of_cons h.no_space_break (decide_eq_true (hafter hne))
  no_space_here hbreak hspace := by
    obtain ⟨rest, rfl⟩ : ∃ rest, text = ' ' :: rest := by
      cases text <;> simp_all
    simpa using Style.not_pair_of_cons h.no_break_space hbreak

/-- A text that is written between apostrophes can stand there. -/
theorem of_ofText (h : Style.ofText text = .singleQuoted) : FitsSingle false [] text := by
  rcases Style.ofText_cases text with
    hquoted | ⟨hprintable, hspaceBreak, hliteral | hsingle | hplain⟩
  · simp [h] at hquoted
  · simp [h] at hliteral
  · refine ⟨fun c hc hspace => ?_, hspaceBreak, hsingle.2.2, by simp, by simp⟩
    simp only [isSpace, isBlank, Bool.or_eq_true, decide_eq_true_eq] at hspace
    rcases hspace with (rfl | rfl) | hbreak
    · exact .inl rfl
    · exact absurd (hprintable _ hc) (by decide)
    · exact .inr ⟨hbreak, fun heq => hsingle.2.1 (heq ▸ hc)⟩
  · simp [h] at hplain

end FitsSingle

namespace Value

/-- Every apostrophe twice. -/
def doubled (text : List Char) : List Char :=
  text.flatMap fun c => if c = apostrophe then [c, c] else [c]

/-- The indentation in front of the closing apostrophe, which keeps a break at the
end of the text from being the start of a line. -/
def closing (indent : Nat) (lineBegins : Bool) (text : List Char) : List Char :=
  if (text.getLast?.map isBreak).getD lineBegins then spaces indent else []

theorem singleQuoted_eq (indent : Nat) (text : List Char) :
    singleQuoted indent text =
      apostrophe :: (indentLines indent false (doubled text) ++ closing indent false text ++
        [apostrophe]) := rfl

theorem closing_cons (indent : Nat) (lineBegins : Bool) (c : Char) (text : List Char) :
    closing indent lineBegins (c :: text) = closing indent (isBreak c) text := by
  cases text with
  | nil => rfl
  | cons d text => simp [closing, List.getLast?_cons]

/-- Any character but an apostrophe stays itself. -/
theorem doubled_cons_of_ne {c : Char} (h : c ≠ apostrophe) (text : List Char) :
    doubled (c :: text) = c :: doubled text := by
  simp [doubled, h]

/-- A character in the text of a line, with the indentation of the line in front. -/
theorem indentLines_doubled {c : Char} (h : isBreak c = false) (indent : Nat) (lineBegins : Bool)
    (text : List Char) :
    indentLines indent lineBegins (doubled (c :: text)) =
      (if lineBegins then spaces indent else []) ++
        ((if c = apostrophe then [c, c] else [c]) ++ indentLines indent false (doubled text)) := by
  by_cases hc : c = apostrophe
  · subst hc
    simp [doubled, indentLines, h]
  · simp [doubled, hc, indentLines, h]

end Value

namespace Quoted

open Value (closing doubled indentLines)

variable {indent : Nat} {mark : Mark} {read run rest text : List Char} {gap : Gap}
  {lineBegins : Bool}

/-- Where the reader stands between two characters of the text. -/
inductive Stands : Bool → List Char → Gap → Mark → Prop where
  | inLine {run : List Char} {mark : Mark} (hcolumn : 0 < mark.column) :
      Stands false run (.blanks run) mark
  | lineBegins {first : Char} {others : List Char} {mark : Mark} (hfirst : first ≠ '\n') :
      Stands true [] (.lines (some first) others) mark

theorem single_space {c : Char} (h : isSpace c = true) :
    single (c :: rest) mark read gap = single rest (mark.after c) read (gap.push c) := by
  rw [single.eq_def]
  simp [h]

theorem single_spaces (count : Nat) (first : Option Char) (others : List Char) :
    single (spaces count ++ rest) mark read (.lines first others) =
      single rest (mark.indent count) read (.lines first others) := by
  induction count generalizing mark with
  | zero => rfl
  | succ count ih =>
    rw [spaces_succ, List.cons_append, single_space isSpace_space, Gap.push_space_lines, ih,
      Mark.indent_after_space]

/-- The indentation of a line is passed over. -/
theorem single_indentation (read : List Char) (h : Stands lineBegins run gap mark)
    (hindent : 0 < indent) :
    ∃ mark' : Mark, 0 < mark'.column ∧ ∀ rest,
      single ((if lineBegins then spaces indent else []) ++ rest) mark read gap =
        single rest mark' read gap := by
  cases h with
  | inLine hcolumn => exact ⟨mark, hcolumn, fun _ => rfl⟩
  | lineBegins _ => exact ⟨mark.indent indent, by simp; omega, fun _ => single_spaces _ _ _⟩

/-- A character that is no white space, with what waits in front of it. -/
theorem single_doubled (gap : Gap) (read : List Char) {c : Char} (hcolumn : 0 < mark.column)
    (hspace : isSpace c = false) :
    ∃ mark' : Mark, 0 < mark'.column ∧ ∀ rest,
      single ((if c = apostrophe then [c, c] else [c]) ++ rest) mark read gap =
        single rest mark' (c :: (gap.folded ++ read)) .empty := by
  have hbreak := isBreak_of_not_isSpace hspace
  have hne : mark.column ≠ 0 := by omega
  by_cases hc : c = apostrophe
  · subst hc
    refine ⟨_, Mark.column_after_pos (mark.after apostrophe) hbreak, fun rest => ?_⟩
    rw [if_pos rfl, List.cons_append, single.eq_def]
    simp [hspace, hne]
  · refine ⟨mark.after c, mark.column_after_pos hbreak, fun rest => ?_⟩
    rw [if_neg hc, List.cons_append, single.eq_def]
    simp [hspace, hne, hc]

theorem single_close (hcolumn : 0 < mark.column) (hrest : apostrophe ∉ rest.head?) :
    single (apostrophe :: rest) mark read gap =
      .ok ((gap.folded ++ read).reverse, ⟨rest, mark.after apostrophe⟩) := by
  have hcolumn : mark.column ≠ 0 := by omega
  rw [single.eq_def]
  cases rest with
  | nil => simp [hcolumn, show isSpace apostrophe = false from rfl]
  | cons d rest =>
    have hd : d ≠ apostrophe := fun heq => hrest (by simp [heq])
    simp [hcolumn, hd, show isSpace apostrophe = false from rfl]

/-- A break in the text begins a line and stays what it is. -/
theorem Stands.push_break {c : Char} (h : Stands lineBegins run gap mark)
    (hbreak : isBreak c = true) (hc : c ≠ '\n') (hrun : run = []) :
    Stands true [] (gap.push c) (mark.after c) ∧ (gap.push c).folded = c :: gap.folded := by
  subst hrun
  cases h with
  | inLine hcolumn =>
    rw [Gap.push_break_blanks hbreak]
    exact ⟨.lineBegins hc, Gap.folded_lines hc _⟩
  | @lineBegins first others _ hfirst =>
    rw [Gap.push_break_lines hbreak]
    exact ⟨.lineBegins hfirst, by rw [Gap.folded_lines hfirst, Gap.folded_lines hfirst]; rfl⟩

/-- One character of the text, with the indentation that its line may begin with.
What has been read is `read` and what waits in front of the next character. -/
theorem single_step (read : List Char) {c : Char} (hstands : Stands lineBegins run gap mark)
    (hfits : FitsSingle lineBegins run (c :: text)) (hindent : 0 < indent) :
    ∃ (run' read' : List Char) (gap' : Gap) (mark' : Mark),
      Stands (isBreak c) run' gap' mark' ∧ FitsSingle (isBreak c) run' text ∧
        gap'.folded ++ read' = c :: (gap.folded ++ read) ∧
        ∀ rest, single (indentLines indent lineBegins (doubled (c :: text)) ++ rest) mark read gap =
          single (indentLines indent (isBreak c) (doubled text) ++ rest) mark' read' gap' := by
  by_cases hbreak : isBreak c = true
  · have hspace := isSpace_of_isBreak hbreak
    have hne : c ≠ apostrophe := by rintro rfl; cases hspace
    have hrun : run = [] := by
      by_contra hrun
      exact absurd hbreak (by simp [hfits.no_break_here hrun c rfl])
    have hc : c ≠ '\n' := by
      rcases hfits.spaces c List.mem_cons_self hspace with rfl | h
      · cases hbreak
      · exact h.2
    obtain ⟨hstands', hfolded⟩ := hstands.push_break hbreak hc hrun
    refine ⟨[], read, gap.push c, mark.after c, hbreak ▸ hstands',
      hfits.tail fun h => absurd rfl h, by rw [hfolded, List.cons_append], fun rest => ?_⟩
    rw [Value.doubled_cons_of_ne hne, indentLines, if_pos hbreak, List.cons_append,
      single_space hspace, hbreak]
  · rw [Bool.not_eq_true] at hbreak
    by_cases hspace : isSpace c = true
    · obtain rfl : c = ' ' := (hfits.spaces c List.mem_cons_self hspace).resolve_right
        fun h => by simp [hbreak] at h
      cases hstands with
      | lineBegins _ => exact absurd rfl (hfits.no_space_here rfl)
      | inLine hcolumn =>
        refine ⟨' ' :: run, read, .blanks (' ' :: run), mark.after ' ',
          .inLine (mark.column_after_pos hbreak), hfits.tail fun _ => rfl, rfl, fun rest => ?_⟩
        rw [Value.doubled_cons_of_ne (by decide), indentLines, if_neg (by simp), hbreak]
        exact single_space hspace
    · rw [Bool.not_eq_true] at hspace
      obtain ⟨start, hstart, hindentation⟩ := single_indentation read hstands hindent
      obtain ⟨mark', hcolumn, hread⟩ := single_doubled gap read hstart hspace
      refine ⟨[], c :: (gap.folded ++ read), .empty, mark', hbreak ▸ .inLine hcolumn,
        hfits.tail fun h => absurd rfl h, rfl, fun rest => ?_⟩
      rw [Value.indentLines_doubled hbreak, List.append_assoc, hindentation, List.append_assoc,
        hread, hbreak]

/-- Reading goes through the whole text, to the apostrophe that closes it. -/
theorem single_text (read rest : List Char) (hstands : Stands lineBegins run gap mark)
    (hfits : FitsSingle lineBegins run text) (hindent : 0 < indent)
    (hrest : apostrophe ∉ rest.head?) :
    ∃ mark' : Mark,
      single (indentLines indent lineBegins (doubled text) ++
          (closing indent lineBegins text ++ apostrophe :: rest)) mark read gap =
        .ok ((gap.folded ++ read).reverse ++ text, ⟨rest, mark'⟩) := by
  induction text generalizing lineBegins run gap mark read with
  | nil =>
    obtain ⟨mark', hcolumn, hstep⟩ := single_indentation read hstands hindent
    refine ⟨mark'.after apostrophe, ?_⟩
    rw [List.append_nil, ← single_close hcolumn hrest, ← hstep (apostrophe :: rest)]
    rfl
  | cons c text ih =>
    obtain ⟨run', read', gap', mark', hstands', hfits', hread, hstep⟩ :=
      single_step read hstands hfits hindent
    obtain ⟨last, hlast⟩ := ih read' hstands' hfits'
    refine ⟨last, ?_⟩
    rw [Value.closing_cons, hstep, hlast, hread]
    simp

end Quoted

namespace Lexer

variable {text rest : List Char} {mark : Mark}

theorem quoted_singleQuoted {indent : Nat} (h : Style.ofText text = .singleQuoted)
    (hindent : 0 < indent) (hrest : apostrophe ∉ rest.head?) :
    ∃ mark' : Mark,
      quoted .singleQuoted ⟨Value.singleQuoted indent text ++ rest, mark⟩ =
        .ok (.scalar .singleQuoted (String.ofList text), ⟨rest, mark'⟩) := by
  obtain ⟨mark', hread⟩ := Quoted.single_text [] rest
    (.inLine (mark.column_after_pos (c := apostrophe) rfl)) (.of_ofText h) hindent hrest
  refine ⟨mark', ?_⟩
  rw [Value.singleQuoted_eq, List.cons_append, List.append_assoc, List.append_assoc]
  simp only [quoted, Cursor.next, if_true]
  rw [List.singleton_append, show Gap.empty = .blanks [] from rfl, hread]
  rfl

theorem quoted_doubleQuoted :
    ∃ mark' : Mark,
      quoted .doubleQuoted ⟨Value.doubleQuoted text ++ rest, mark⟩ =
        .ok (.scalar .doubleQuoted (String.ofList text), ⟨rest, mark'⟩) := by
  obtain ⟨mark', hread⟩ := Quoted.double_text text [] [] rest
    (mark.column_after_pos (c := '"') rfl)
  refine ⟨mark', ?_⟩
  rw [Value.doubleQuoted, List.append_assoc, List.cons_append]
  simp only [quoted, Cursor.next, reduceCtorEq, if_false]
  rw [List.singleton_append, show Gap.empty = .blanks [] from rfl, hread]
  rfl

end Lexer

end Telemetry.Yaml
