import Telemetry.Proofs.Yaml.Written

/-!
# Written values, token by token

A lexer that reads what was written for a value passes through few kinds of
states: at the start of a line, behind the colon of a name, and in front of the
value.  Each kind leads to the next, and by recursion on the value the lexer gets
from its first line to the line behind it.
-/

namespace Telemetry.Yaml

open Value (spaces)

/-! ## The tokens of a value -/

mutual

/-- What a value is to the grammar. -/
def Value.tokens : Value → List Token
  | .number amount => [.scalar .plain (toString amount)]
  | .text content => [.scalar (Style.ofText content.toList) content]
  | .mapping entries => .blockMappingStart :: entryTokens entries ++ [.blockEnd]

def Value.entryTokens : List (String × Value) → List Token
  | [] => []
  | (name, value) :: entries =>
    .key :: .scalar .plain name :: .value :: value.tokens ++ entryTokens entries

end

namespace Lexer

variable {lexer later here : Lexer} {margin column limit : Nat} {outer : List Nat}
  {tokens : List Token} {text rest tail : List Char} {mark : Mark} {c : Char}

/-! ## Runs -/

/-- Reading leads from one state to another, on no more tokens than characters. -/
def Reaches (lexer later : Lexer) : Prop :=
  ∃ count, later.cursor.rest.length + count ≤ lexer.cursor.rest.length ∧
    ∀ fuel, run (fuel + count) lexer = run fuel later

namespace Reaches

theorem refl (lexer : Lexer) : lexer.Reaches lexer := ⟨0, le_rfl, fun _ => rfl⟩

theorem trans {last : Lexer} (h : lexer.Reaches later) (h' : later.Reaches last) :
    lexer.Reaches last := by
  obtain ⟨count, hlength, hrun⟩ := h
  obtain ⟨count', hlength', hrun'⟩ := h'
  refine ⟨count' + count, by omega, fun fuel => ?_⟩
  rw [← Nat.add_assoc, hrun, hrun']

/-- One token. -/
theorem token (c : Char) (rest : List Char) (hadvance : lexer.advance = .ok here)
    (hrest : here.cursor.rest = c :: rest)
    (htoken : here.token c rest = .ok later)
    (hlength : later.cursor.rest.length < lexer.cursor.rest.length) : lexer.Reaches later := by
  refine ⟨1, hlength, fun fuel => ?_⟩
  rw [run, hadvance]
  simp only [bind, Except.bind, hrest, htoken]

end Reaches

/-! ## Between tokens -/

theorem length_skipSpace_le (inFlow : Bool) (text : List Char) (mark : Mark)
    (keyAllowed inComment : Bool) :
    (skipSpace inFlow text mark keyAllowed inComment).1.rest.length ≤ text.length := by
  induction text generalizing mark keyAllowed inComment with
  | nil => exact le_rfl
  | cons c text ih =>
    rw [skipSpace]
    split
    · exact Nat.le_succ_of_le (ih ..)
    · split
      · exact Nat.le_succ_of_le (ih ..)
      · split
        · exact Nat.le_succ_of_le (ih ..)
        · exact le_rfl

theorem length_nextToken_le (tail : List Char) (mark : Mark) :
    (nextToken tail mark).rest.length ≤ tail.length :=
  length_skipSpace_le ..

theorem closeBlocksTo_of_le {current : Nat} (h : current ≤ margin) (tokens : Array Token) :
    closeBlocksTo margin current outer tokens = (current, outer, tokens) := by
  cases outer with
  | nil => rfl
  | cons next others => rw [closeBlocksTo, if_pos h]

theorem advance_eq (lexer : Lexer) {cursor : Cursor} {keyAllowed : Bool} {blocks : Array Token}
    {candidate : Option Candidate}
    (hflow : lexer.outerCandidates = [])
    (hspace : skipSpace false lexer.cursor.rest lexer.cursor.mark lexer.keyAllowed false =
      (cursor, keyAllowed))
    (hkeep : keepCandidate cursor.mark lexer.candidate = .ok candidate)
    (hblocks : closeBlocksTo (cursor.mark.column + 1) lexer.margin lexer.outerMargins lexer.tokens =
      (margin, outer, blocks)) :
    lexer.advance =
      .ok { cursor, keyAllowed, margin, candidate, tokens := blocks, outerMargins := outer } := by
  simp [advance, hspace, expireCandidates, hkeep, hflow, closeBlocks, inFlow, hblocks,
    bind, Except.bind, pure, Except.pure]

/-! ## Which token begins -/

theorem nodePart_eq {scan : Cursor → Except Fault (Token × Cursor)} {token : Token}
    {cursor : Cursor} (hallowed : lexer.keyAllowed = false)
    (hscan : scan lexer.cursor = .ok (token, cursor)) :
    lexer.nodePart scan =
      .ok { lexer with cursor, keyAllowed := false, tokens := lexer.tokens.push token } := by
  simp [nodePart, offerCandidate, hallowed, hscan, emit, bind, Except.bind, pure, Except.pure]

theorem block_eq {cursor : Cursor} (hcandidate : lexer.candidate = none)
    (hscan : Block.scan true lexer.margin lexer.cursor.next = .ok (text, cursor)) :
    lexer.block .literal =
      .ok { lexer with
        cursor
        keyAllowed := true
        tokens := lexer.tokens.push (.scalar .literal (String.ofList text)) } := by
  simp [block, dropCandidate, hcandidate, hscan, emit, bind, Except.bind, pure, Except.pure]

section Dispatch

variable (lexer : Lexer) (hflow : lexer.outerCandidates = [])

include hflow

theorem token_plain (h : beginsPlain false c rest = true)
    (hmarker : lexer.column = 0 → atDocumentMarker (c :: rest) = false) :
    lexer.token c rest = lexer.plain := by
  have hinFlow : lexer.inFlow = false := by simp [inFlow, hflow]
  have hminus : c = '-' → atSpace rest = false := by
    rintro rfl
    simpa [beginsPlain] using h
  have hquery : c = '?' ∨ c = ':' → atSpace rest = false := by
    rintro (rfl | rfl) <;> simpa [beginsPlain] using h
  have hne (d : Char) (hd : ∀ rest, beginsPlain false d rest = false) : c ≠ d := by
    rintro rfl
    rw [hd] at h
    cases h
  have hstart : lexer.column = 0 →
      atMarker '-' (c :: rest) = false ∧ atMarker '.' (c :: rest) = false := by
    simpa [atDocumentMarker] using hmarker
  rw [token]
  rw [hinFlow, if_neg (by simp [hne '%' fun _ => rfl]), if_neg (by simp; tauto),
    if_neg (by simp; tauto),
    if_neg (hne '[' fun _ => rfl), if_neg (hne '{' fun _ => rfl), if_neg (hne ']' fun _ => rfl),
    if_neg (hne '}' fun _ => rfl), if_neg (hne ',' fun _ => rfl), if_neg (by simpa using hminus),
    if_neg (by simpa using fun heq => hquery (.inl heq)),
    if_neg (by simpa using fun heq => hquery (.inr heq)),
    if_neg (hne '*' fun _ => rfl), if_neg (hne '&' fun _ => rfl), if_neg (hne '!' fun _ => rfl),
    if_neg (by simp [hne '|' fun _ => rfl]), if_neg (by simp [hne '>' fun _ => rfl]),
    if_neg (hne apostrophe fun _ => rfl), if_neg (hne '"' fun _ => rfl), if_pos h]

theorem token_colon (hcolumn : lexer.column ≠ 0) (hrest : atSpace rest = true) :
    lexer.token ':' rest = lexer.value := by
  have hinFlow : lexer.inFlow = false := by simp [inFlow, hflow]
  simp [token, hcolumn, hinFlow, hrest]

theorem token_apostrophe (hcolumn : lexer.column ≠ 0) :
    lexer.token apostrophe rest = lexer.nodePart (quoted .singleQuoted) := by
  have hinFlow : lexer.inFlow = false := by simp [inFlow, hflow]
  simp [token, hcolumn, hinFlow, apostrophe]

theorem token_quotationMark (hcolumn : lexer.column ≠ 0) :
    lexer.token '"' rest = lexer.nodePart (quoted .doubleQuoted) := by
  have hinFlow : lexer.inFlow = false := by simp [inFlow, hflow]
  simp [token, hcolumn, hinFlow, apostrophe]

theorem token_bar (hcolumn : lexer.column ≠ 0) : lexer.token '|' rest = lexer.block .literal := by
  have hinFlow : lexer.inFlow = false := by simp [inFlow, hflow]
  simp [token, hcolumn, hinFlow]

/-- A plain scalar is offered as a key where one may stand. -/
theorem plain_eq (hcandidate : lexer.candidate = none) {hasBreak : Bool} {cursor : Cursor}
    (hscan : Plain.scan false lexer.margin lexer.cursor.rest lexer.cursor.mark [] .empty =
      .ok (text, hasBreak, cursor)) :
    lexer.plain =
      .ok { lexer with
        cursor
        keyAllowed := hasBreak
        tokens := lexer.tokens.push (.scalar .plain (String.ofList text))
        candidate :=
          if lexer.keyAllowed then
            some ⟨lexer.tokens.size, lexer.cursor.mark, lexer.margin = lexer.column + 1⟩
          else none } := by
  cases hallowed : lexer.keyAllowed <;>
    simp [plain, offerCandidate, dropCandidate, hallowed, hcandidate, inFlow, hflow, hscan, emit,
      bind, Except.bind, pure, Except.pure]

end Dispatch

/-- The blocks around an entry in `column`, which may be the first of its mapping. -/
def opened (margin column : Nat) (outer : List Nat) : List Nat :=
  if margin ≤ column then margin :: outer else outer

/-- The token that opens the mapping of an entry in `column`, if it is the first. -/
def opening (margin column : Nat) : List Token :=
  if margin ≤ column then [.blockMappingStart] else []

theorem insertIdx_append (front back : List Token) (token : Token) :
    (front ++ back).insertIdx front.length token = front ++ token :: back := by
  induction front with
  | nil => rfl
  | cons first front ih => simp [ih]

/-- A candidate becomes a key, and the first of its mapping opens the mapping. -/
theorem value_eq (front : List Token) {name : Token} {required : Bool}
    (hflow : lexer.outerCandidates = [])
    (hcandidate : lexer.candidate = some ⟨front.length, mark, required⟩)
    (htokens : lexer.tokens = (front ++ [name]).toArray) :
    lexer.value =
      .ok { lexer with
        cursor := lexer.cursor.next
        tokens := (front ++ (opening lexer.margin mark.column ++ [.key, name, .value])).toArray
        margin := if lexer.margin ≤ mark.column then mark.column + 1 else lexer.margin
        outerMargins := opened lexer.margin mark.column lexer.outerMargins
        candidate := none
        keyAllowed := false } := by
  by_cases h : lexer.margin ≤ mark.column <;>
    simp [value, hcandidate, htokens, insertIdx_append, openBlock, inFlow, hflow, h, opening,
      opened, emitIndicator, emit, Nat.repeat, pure, Except.pure]

/-! ## Places between entries -/

/-- The lexer stands in front of `text`, which begins a line.  Once the blocks that
are deeper than `limit` are closed, the open ones and the tokens so far are as
given. -/
structure AtLine (lexer : Lexer) (limit : Nat) (text : List Char) (margin : Nat)
    (outer : List Nat) (tokens : List Token) : Prop where
  no_flow : lexer.outerCandidates = []
  no_candidate : lexer.candidate = none
  blocks : ∀ n ≤ limit, closeBlocksTo n lexer.margin lexer.outerMargins lexer.tokens =
    closeBlocksTo n margin outer tokens.toArray
  space : ∃ mark : Mark, mark.column = 0 ∧
    skipSpace false lexer.cursor.rest lexer.cursor.mark lexer.keyAllowed false =
      skipSpace false text mark true false

namespace AtLine

theorem mono {limit' : Nat} (h : lexer.AtLine limit text margin outer tokens)
    (hle : limit' ≤ limit) : lexer.AtLine limit' text margin outer tokens where
  no_flow := h.no_flow
  no_candidate := h.no_candidate
  blocks n hn := h.blocks n (hn.trans hle)
  space := h.space

/-- A block that is deeper than whatever comes next is closed. -/
theorem close {limit' : Nat} (h : lexer.AtLine limit text margin (limit' :: outer) tokens)
    (hle : limit' ≤ limit) (hlt : limit' < margin) :
    lexer.AtLine limit' text limit' outer (tokens ++ [.blockEnd]) where
  no_flow := h.no_flow
  no_candidate := h.no_candidate
  blocks n hn := by
    rw [h.blocks n (hn.trans hle), closeBlocksTo, if_neg (by omega), List.push_toArray]
  space := h.space

end AtLine

/-- The lexer behind the colon of a name in `column`. -/
def afterColon (column : Nat) (outer : List Nat) (tokens : List Token) (cursor : Cursor) :
    Lexer where
  cursor := cursor
  tokens := tokens.toArray
  margin := column + 1
  outerMargins := outer
  keyAllowed := false

/-- The lexer behind a name in `column`, in front of the colon. -/
def afterName (margin column : Nat) (outer : List Nat) (tokens : List Token) (name rest : List Char)
    (mark : Mark) : Lexer where
  cursor := ⟨':' :: rest, mark.past name⟩
  tokens := (tokens ++ [Token.scalar .plain (String.ofList name)]).toArray
  margin := margin
  outerMargins := outer
  candidate := some ⟨tokens.length, mark, margin = column + 1⟩
  keyAllowed := false

section Names

variable {name : List Char}

theorem reaches_afterName
    (h : lexer.AtLine limit (spaces column ++ (name ++ ':' :: rest)) margin outer tokens)
    (hname : ReadsPlain name) (hrest : atSpace rest = true) (hlimit : column + 1 ≤ limit)
    (hmargin : margin ≤ column + 1) :
    ∃ mark : Mark, mark.column = column ∧
      lexer.Reaches (afterName margin column outer tokens name rest mark) := by
  obtain ⟨mark, hzero, hspace⟩ := h.space
  obtain ⟨c, more, rfl, hc⟩ := hname.exists_cons
  have hcolumn : (mark.indent column).column = column := by simp [hzero]
  refine ⟨mark.indent column, hcolumn, ?_⟩
  have hspace' : skipSpace false lexer.cursor.rest lexer.cursor.mark lexer.keyAllowed false =
      (⟨c :: more ++ ':' :: rest, mark.indent column⟩, true) := by
    rw [hspace, skipSpace_spaces]
    exact skipSpace_of_beginsToken hc _ _ _
  have hadvance := advance_eq lexer h.no_flow hspace' (by rw [h.no_candidate]; rfl)
    (by rw [hcolumn, h.blocks _ hlimit, closeBlocksTo_of_le hmargin])
  have hmarker : atDocumentMarker (c :: more ++ ':' :: rest) = false :=
    Style.not_marker_of_not_markup hname.not_markup (by simp)
  have hscan : Plain.scan false margin (c :: more ++ ':' :: rest) (mark.indent column) [] .empty =
      .ok (c :: more, false, ⟨':' :: rest, (mark.indent column).past (c :: more)⟩) := by
    rw [Gap.empty, Plain.scan_text hname.continues hname.ne_nil (by omega) (.inl rfl)
      fun _ => hmarker, Plain.scan_colon hrest]
    simp
  refine .token c (more ++ ':' :: rest) hadvance rfl ?_ ?_
  · rw [token_plain _ rfl hname.beginsPlain fun _ => hmarker, plain_eq _ rfl rfl hscan]
    simp only [if_true, List.push_toArray, List.size_toArray, Lexer.column, hcolumn]
    rfl
  · have hlength := length_skipSpace_le false lexer.cursor.rest lexer.cursor.mark lexer.keyAllowed
      false
    rw [hspace'] at hlength
    simp only [afterName, List.length_cons, List.length_append] at hlength ⊢
    omega

theorem reaches_afterColon (outer : List Nat) (tokens : List Token) (hname : IsName name)
    (hcolumn : mark.column = column)
    (hrest : atSpace rest = true) (hmargin : margin ≤ column + 1) :
    ∃ mark' : Mark, column < mark'.column ∧
      (afterName margin column outer tokens name rest mark).Reaches
        (afterColon column (opened margin column outer)
          (tokens ++ (opening margin column ++
            [.key, .scalar .plain (String.ofList name), .value]))
          ⟨rest, mark'⟩) := by
  have hplain := hname.readsPlain
  have hpast := mark.past_of_not_isBreak fun c hc => hplain.not_isBreak hc
  have hplace : (mark.past name).column = column + name.length := by rw [hpast, ← hcolumn]
  have hne : 0 < name.length := List.length_pos_iff.mpr hplain.ne_nil
  have hafter : ((mark.past name).after ':').column = column + name.length + 1 := by
    rw [Mark.after_of_not_isBreak _ rfl, hplace]
  refine ⟨(mark.past name).after ':', by omega, ?_⟩
  have hspace := skipSpace_of_beginsToken (c := ':') ⟨rfl, by decide, by decide⟩ rest
    (mark.past name) false
  have hkeep : keepCandidate (mark.past name) (some ⟨tokens.length, mark, margin = column + 1⟩) =
      .ok (some ⟨tokens.length, mark, margin = column + 1⟩) := by
    have hshort := hname.short
    rw [keepCandidate, hpast, if_neg (by simp; omega)]
  have hadvance := advance_eq (afterName margin column outer tokens name rest mark) rfl
    hspace hkeep (closeBlocksTo_of_le (by rw [hplace]; simp only [afterName]; omega) _)
  refine .token ':' rest hadvance rfl ?_ (by simp [afterName, afterColon])
  rw [token_colon _ rfl (by simp only [Lexer.column, hplace]; omega) hrest,
    value_eq tokens rfl rfl rfl]
  have hdepth : (if margin ≤ column then column + 1 else margin) = column + 1 := by
    split <;> omega
  simp only [afterName, afterColon, Cursor.next, hcolumn, hdepth]

end Names

/-! ## Scalars -/

section Scalars

theorem advance_afterColon (hc : BeginsToken c) (hcolumn : column < mark.column) :
    (afterColon column outer tokens ⟨' ' :: c :: rest, mark⟩).advance =
      .ok (afterColon column outer tokens ⟨c :: rest, mark.after ' '⟩) := by
  have hspace : skipSpace false (' ' :: c :: rest) mark false false =
      (⟨c :: rest, mark.after ' '⟩, false) := by
    rw [← skipSpace_of_beginsToken hc rest (mark.after ' ') false]
    simp [skipSpace]
  have hplace : (mark.after ' ').column = mark.column + 1 := by
    rw [mark.after_of_not_isBreak isBreak_space]
  exact advance_eq _ rfl hspace rfl
    (closeBlocksTo_of_le (by rw [hplace]; simp only [afterColon]; omega) _)

/-- The lexer behind a value that is a scalar. -/
def afterScalar (column : Nat) (outer : List Nat) (tokens : List Token) (cursor : Cursor)
    (keyAllowed : Bool) : Lexer :=
  { afterColon column outer tokens cursor with keyAllowed }

/-- Behind a plain scalar or a block the lexer has moved to the next line. -/
theorem atLine_nextToken (mark : Mark) (htail : EndsBefore (column + 1) tail)
    (hmark : mark.column = 0) :
    (afterScalar column outer tokens (nextToken tail mark) true).AtLine (column + 1) tail
      (column + 1) outer tokens where
  no_flow := rfl
  no_candidate := rfl
  blocks _ _ := rfl
  space := ⟨mark, hmark, (htail.skipSpace_nextToken mark true).trans (htail.skipSpace_eq mark).symm⟩

/-- Behind a closing mark the line break is still to come. -/
theorem atLine_lineFeed (mark : Mark) (keyAllowed : Bool) :
    (afterScalar column outer tokens ⟨'\n' :: tail, mark⟩ keyAllowed).AtLine limit tail
      (column + 1) outer tokens where
  no_flow := rfl
  no_candidate := rfl
  blocks _ _ := rfl
  space := ⟨mark.after '\n', by rw [mark.after_of_isBreak isBreak_lineFeed],
    skipSpace_lineFeed tail mark keyAllowed⟩

/-- What is asked of the text that is written for a scalar. -/
def ReadsAs (column : Nat) (written : List Char) (token : Token) : Prop :=
  ∀ (outer : List Nat) (tokens : List Token) (tail : List Char) (mark : Mark),
    EndsBefore (column + 1) tail → column < mark.column →
      ∃ later, (afterColon column outer tokens ⟨' ' :: (written ++ tail), mark⟩).Reaches later ∧
        later.AtLine (column + 1) tail (column + 1) outer (tokens ++ [token])

theorem readsAs_plain (h : ReadsPlain text) :
    ReadsAs column (text ++ ['\n']) (.scalar .plain (String.ofList text)) := by
  intro outer tokens tail mark htail hcolumn
  obtain ⟨c, more, rfl, hc⟩ := h.exists_cons
  have hplace : (mark.after ' ').column = mark.column + 1 := by
    rw [mark.after_of_not_isBreak isBreak_space]
  have hscan : Plain.scan false (column + 1) (c :: more ++ '\n' :: tail) (mark.after ' ') []
      .empty =
        .ok (c :: more, true, nextToken tail (((mark.after ' ').past (c :: more)).after '\n')) := by
    rw [Gap.empty, Plain.scan_text h.continues h.ne_nil (by omega) (.inl rfl) (by omega),
      Plain.scan_lineFeed htail]
    simp
  refine ⟨_, ?_, atLine_nextToken (((mark.after ' ').past (c :: more)).after '\n') htail
    (by rw [Mark.after_of_isBreak _ isBreak_lineFeed])⟩
  rw [List.append_assoc, List.singleton_append]
  refine .token c (more ++ '\n' :: tail) (advance_afterColon hc hcolumn) rfl ?_ ?_
  · have hne (hzero : (mark.after ' ').column = 0) :
        atDocumentMarker (c :: (more ++ '\n' :: tail)) = false := by
      omega
    rw [token_plain (afterColon column outer tokens ⟨_, mark.after ' '⟩) rfl h.beginsPlain hne,
      plain_eq _ rfl rfl hscan]
    simp only [afterColon, afterScalar, List.push_toArray]
    rfl
  · have hlength := length_nextToken_le tail (((mark.after ' ').past (c :: more)).after '\n')
    simp only [afterScalar, afterColon, List.length_cons, List.length_append]
    omega

theorem readsAs_quoted {style : Style} {written : List Char} {token : Token} (hc : BeginsToken c)
    (hdispatch : ∀ (lexer : Lexer) (rest : List Char), lexer.outerCandidates = [] →
      lexer.column ≠ 0 → lexer.token c rest = lexer.nodePart (quoted style))
    (hread : ∀ tail mark, ∃ mark' : Mark,
      quoted style ⟨c :: (written ++ '\n' :: tail), mark⟩ = .ok (token, ⟨'\n' :: tail, mark'⟩)) :
    ReadsAs column (c :: written ++ ['\n']) token := by
  intro outer tokens tail mark htail hcolumn
  have hplace : (mark.after ' ').column ≠ 0 := by
    rw [mark.after_of_not_isBreak isBreak_space]
    exact Nat.succ_ne_zero _
  obtain ⟨mark', hscan⟩ := hread tail (mark.after ' ')
  refine ⟨_, ?_, atLine_lineFeed mark' false⟩
  rw [List.append_assoc, List.singleton_append, List.cons_append]
  refine .token c (written ++ '\n' :: tail) (advance_afterColon hc hcolumn) rfl ?_ ?_
  · rw [hdispatch (afterColon column outer tokens
      ⟨c :: (written ++ '\n' :: tail), mark.after ' '⟩) _ rfl hplace, nodePart_eq rfl hscan]
    simp only [afterColon, afterScalar, List.push_toArray]
  · simp only [afterScalar, afterColon, List.length_cons, List.length_append]
    omega

theorem readsAs_singleQuoted (h : Style.ofText text = .singleQuoted) :
    ReadsAs column (Value.singleQuoted (column + 2) text ++ ['\n'])
      (.scalar .singleQuoted (String.ofList text)) := by
  rw [Value.singleQuoted_eq]
  refine readsAs_quoted ⟨rfl, by decide, by decide⟩ (fun lexer _ => token_apostrophe lexer)
    fun tail mark => ?_
  rw [← List.cons_append, ← Value.singleQuoted_eq]
  exact quoted_singleQuoted h (Nat.succ_pos _) (by simp [apostrophe])

theorem readsAs_doubleQuoted :
    ReadsAs column (Value.doubleQuoted text ++ ['\n'])
      (.scalar .doubleQuoted (String.ofList text)) := by
  refine readsAs_quoted ⟨rfl, by decide, by decide⟩ (fun lexer _ => token_quotationMark lexer)
    fun tail mark => ?_
  exact quoted_doubleQuoted

theorem readsAs_literal (h : Style.ofText text = .literal) :
    ReadsAs column (Value.endLine (Value.literal (column + 2) text))
      (.scalar .literal (String.ofList text)) := by
  intro outer tokens tail mark htail hcolumn
  have hplace : (mark.after ' ').column ≠ 0 := by
    rw [mark.after_of_not_isBreak isBreak_space]
    exact Nat.succ_ne_zero _
  obtain ⟨mark', hmark, hscan⟩ := Block.scan_literal ((mark.after ' ').after '|') h
    (Nat.succ_pos column) htail
  refine ⟨_, ?_, atLine_nextToken mark' htail hmark⟩
  rw [Value.endLine_literal (Style.ne_nil_of_ofText h), List.cons_append, List.append_assoc,
    List.cons_append, List.append_assoc]
  refine .token '|' _ (advance_afterColon ⟨rfl, by decide, by decide⟩ hcolumn) rfl ?_ ?_
  · rw [token_bar (afterColon column outer tokens ⟨_, mark.after ' '⟩) rfl hplace,
      block_eq rfl hscan]
    simp only [afterColon, afterScalar, List.push_toArray]
  · have hlength := length_nextToken_le tail mark'
    simp only [afterScalar, afterColon, List.length_cons, List.length_append]
    omega

theorem endLine_concat {last : Char} (h : isBreak last = false) (front : List Char) :
    Value.endLine (front ++ [last]) = front ++ [last] ++ ['\n'] := by
  simp [Value.endLine, Value.endsInBreak, h]

/-- A text reads back in the style in which it is written. -/
theorem readsAs_text (text : List Char) :
    ReadsAs column (Value.endLine (Value.written (column + 2) text))
      (.scalar (Style.ofText text) (String.ofList text)) := by
  rcases Style.ofText_cases text with h | ⟨-, -, ⟨h, -⟩ | ⟨h, -⟩ | ⟨h, -⟩⟩
  · simp only [Value.written, h]
    rw [Value.doubleQuoted, endLine_concat rfl, ← Value.doubleQuoted]
    exact readsAs_doubleQuoted
  · simp only [Value.written, h]
    exact readsAs_literal h
  · simp only [Value.written, h]
    rw [Value.singleQuoted, endLine_concat rfl, ← Value.singleQuoted]
    exact readsAs_singleQuoted h
  · simp only [Value.written, h]
    have hplain := Style.readsPlain_of_ofText h
    obtain ⟨others, last, rfl⟩ := List.eq_nil_or_concat' text |>.resolve_left hplain.ne_nil
    rw [endLine_concat (hplain.not_isBreak (by simp))]
    exact readsAs_plain hplain

end Scalars

/-! ## Whole values -/

theorem opened_of_lt (h : column < margin) : opened margin column outer = outer :=
  if_neg (by omega)

theorem opening_of_lt (h : column < margin) : opening margin column = [] :=
  if_neg (by omega)

mutual

/-- Behind the colon the lexer reads the value up to the line behind it. -/
theorem reaches_value {column : Nat} {outer : List Nat} {tokens : List Token} {tail : List Char}
    {mark : Mark} (value : Value) (h : value.IsReadable)
    (htail : EndsBefore (column + 1) tail) (hcolumn : column < mark.column) :
    ∃ later, (afterColon column outer tokens ⟨value.inLine column ++ tail, mark⟩).Reaches later ∧
      later.AtLine (column + 1) tail (column + 1) outer (tokens ++ value.tokens) := by
  match value with
  | .number amount =>
    have hplain : ReadsPlain (toString amount).toList :=
      Numeral.toList_toString amount ▸ readsPlain_toDigits amount
    have hread := readsAs_plain hplain outer tokens tail mark htail hcolumn
    rwa [String.ofList_toList] at hread
  | .text content =>
    have hread := readsAs_text content.toList outer tokens tail mark htail hcolumn
    rwa [String.ofList_toList] at hread
  | .mapping entries =>
    rw [Value.inLine_mapping h.1, List.cons_append]
    have hstart : (afterColon column outer tokens
        ⟨'\n' :: (Value.lines (column + 2) entries ++ tail), mark⟩).AtLine (column + 3)
          (Value.lines (column + 2) entries ++ tail) (column + 1) outer tokens :=
      atLine_lineFeed mark false
    obtain ⟨later, hreaches, hline⟩ := reaches_entries entries h.2 hstart le_rfl
      (.inr ⟨Nat.le_succ _, h.1⟩) (htail.mono (by omega))
    rw [opened, if_pos (Nat.le_succ _), opening, if_pos (Nat.le_succ _)] at hline
    refine ⟨later, hreaches, ?_⟩
    simpa [Value.tokens] using hline.close (by omega) (by omega)

/-- The lexer reads the entries of a mapping up to the line behind them.  The first
of them opens the mapping unless it is open. -/
theorem reaches_entries {lexer : Lexer} {limit column margin : Nat} {outer : List Nat}
    {tokens : List Token} {tail : List Char} (entries : List (String × Value))
    (h : Value.EntriesReadable entries)
    (hline : lexer.AtLine limit (Value.lines column entries ++ tail) margin outer tokens)
    (hlimit : column + 1 ≤ limit) (hmargin : margin = column + 1 ∨ margin ≤ column ∧ entries ≠ [])
    (htail : EndsBefore (column + 1) tail) :
    ∃ later, lexer.Reaches later ∧
      later.AtLine (column + 1) tail (column + 1) (opened margin column outer)
        (tokens ++ (opening margin column ++ Value.entryTokens entries)) := by
  match entries with
  | [] =>
    obtain rfl : margin = column + 1 := hmargin.resolve_right fun hempty => hempty.2 rfl
    refine ⟨lexer, .refl lexer, ?_⟩
    rw [opened_of_lt (Nat.lt_succ_self _), opening_of_lt (Nat.lt_succ_self _)]
    simpa [Value.entryTokens, Value.lines] using hline.mono hlimit
  | (name, value) :: entries =>
    obtain ⟨hname, hvalue, hentries⟩ := h
    rw [Value.lines_cons hname] at hline
    have hle : margin ≤ column + 1 := by omega
    have hspace := Value.atSpace_inLine column value (Value.lines column entries ++ tail)
    obtain ⟨start, hstart, hnamed⟩ := reaches_afterName hline hname.readsPlain hspace hlimit hle
    obtain ⟨mark, hcolumn, hcolon⟩ := reaches_afterColon outer tokens hname hstart hspace hle
    obtain ⟨between, hbetween, hnext⟩ := reaches_value value hvalue
      (Value.endsBefore_lines hentries htail) hcolumn
    obtain ⟨later, hlater, hend⟩ := reaches_entries entries hentries hnext le_rfl (.inl rfl) htail
    refine ⟨later, hnamed.trans (hcolon.trans (hbetween.trans hlater)), ?_⟩
    rw [opened_of_lt (Nat.lt_succ_self _), opening_of_lt (Nat.lt_succ_self _)] at hend
    simpa [Value.entryTokens] using hend

end

/-- Where the text is over the outermost mapping is closed. -/
theorem run_end (h : lexer.AtLine limit [] 1 [0] tokens) (hlimit : 1 ≤ limit) (fuel : Nat) :
    run (fuel + 1) lexer = .ok (tokens ++ [.blockEnd]) := by
  obtain ⟨mark, hzero, hspace⟩ := h.space
  have hcursor : skipSpace false [] mark true false = (⟨[], mark⟩, true) := rfl
  have hadvance := advance_eq lexer h.no_flow (hspace.trans hcursor)
    (by rw [h.no_candidate]; rfl)
    (by rw [hzero, h.blocks _ hlimit, closeBlocksTo_of_le le_rfl])
  have hclosed : closeBlocksTo 0 1 [0] tokens.toArray =
      (0, [], (tokens ++ [Token.blockEnd]).toArray) := by
    rw [closeBlocksTo, if_neg (by decide), closeBlocksTo, List.push_toArray]
  rw [run, hadvance]
  simp [endBlocks, closeBlocks, inFlow, hclosed, dropCandidate, bind, Except.bind, pure,
    Except.pure]

end Lexer

/-- The text of a mapping is read as the tokens of the mapping. -/
theorem Token.ofText_render {entries : List (String × Value)}
    (h : (Value.mapping entries).IsReadable) :
    Token.ofText (Value.mapping entries).render.toList = .ok (Value.mapping entries).tokens := by
  have htext : (Value.mapping entries).render.toList = Value.lines 0 entries := by
    obtain ⟨entry, entries, rfl⟩ := List.exists_cons_of_ne_nil h.1
    rw [Value.render, String.toList_ofList]
  have hprintable : IsPrintableText (Value.lines 0 entries) := .lines 0 entries
  have hstart : Lexer.AtLine { cursor := { rest := Value.lines 0 entries } } 1
      (Value.lines 0 entries ++ []) 0 [] [] :=
    ⟨rfl, rfl, fun _ _ => rfl, {}, rfl, by rw [List.append_nil]⟩
  obtain ⟨later, ⟨count, hcount, hrun⟩, hline⟩ := Lexer.reaches_entries entries h.2 hstart le_rfl
    (.inr ⟨le_rfl, h.1⟩) .nothing
  have hfuel : (Value.lines 0 entries).length + 1 =
      (Value.lines 0 entries).length - count + 1 + count := by
    have : count ≤ (Value.lines 0 entries).length := le_trans (Nat.le_add_left _ _) hcount
    omega
  rw [Token.ofText, htext, if_pos hprintable.isAllowed, hprintable.normalizeBreaks_eq]
  dsimp only
  rw [hfuel, hrun, Lexer.run_end hline le_rfl]
  rfl

end Telemetry.Yaml
