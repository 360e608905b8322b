import Telemetry.Proofs.Yaml.LiteralScalars
import Telemetry.Proofs.Yaml.Numbers
import Telemetry.Proofs.Yaml.QuotedScalars

/-!
# Values as they are written

What holds of the text of a value as a whole: every line of a mapping begins with
a name, and every character is one that a document may have.
-/

namespace Telemetry.Yaml

open Value (spaces indentLines)

/-- A name that is written plain and is short enough to be found as a key. -/
structure IsName (name : List Char) : Prop where
  plain : Style.ofText name = .plain
  short : octets name ≤ Lexer.maxKeyLength

mutual

/-- A value that no name, no empty mapping and no number beyond a word keeps from reading
back. -/
def Value.IsReadable : Value → Prop
  | .number amount => amount < UInt64.size
  | .text _ => True
  | .mapping entries => entries ≠ [] ∧ EntriesReadable entries

def Value.EntriesReadable : List (String × Value) → Prop
  | [] => True
  | (name, value) :: entries => IsName name.toList ∧ value.IsReadable ∧ EntriesReadable entries

end

namespace IsName

variable {name : List Char}

theorem readsPlain (h : IsName name) : ReadsPlain name := Style.readsPlain_of_ofText h.plain

theorem writtenName_eq (h : IsName name) : Value.writtenName name = name := by
  simp [Value.writtenName, Value.written, h.plain]

end IsName

/-! ## Lines -/

namespace Value

variable {indent : Nat} {name : String} {value : Value} {entries : List (String × Value)}
  {tail : List Char}

/-- An entry is its name behind the indentation, a colon and the value. -/
theorem lines_cons (h : IsName name.toList) :
    lines indent ((name, value) :: entries) ++ tail =
      spaces indent ++ (name.toList ++
        ':' :: (inLine indent value ++ (lines indent entries ++ tail))) := by
  rw [lines, h.writtenName_eq]
  simp

theorem inLine_mapping (h : entries ≠ []) :
    inLine indent (.mapping entries) = '\n' :: lines (indent + 2) entries := by
  obtain ⟨entry, entries, rfl⟩ := List.exists_cons_of_ne_nil h
  rw [inLine]
  simp

/-- White space follows the colon. -/
theorem atSpace_inLine (indent : Nat) (value : Value) (tail : List Char) :
    atSpace (inLine indent value ++ tail) = true := by
  cases value with
  | number | text => rfl
  | mapping entries => cases entries <;> rfl

/-- Entries are not indented more than their mapping. -/
theorem endsBefore_lines (h : EntriesReadable entries) (htail : EndsBefore (indent + 1) tail) :
    EndsBefore (indent + 1) (lines indent entries ++ tail) := by
  cases entries with
  | nil => exact htail
  | cons entry entries =>
    obtain ⟨name, value⟩ := entry
    obtain ⟨c, rest, heq, hc⟩ := h.1.readsPlain.exists_cons
    rw [lines_cons h.1, heq]
    exact .line (Nat.lt_succ_self _) hc

end Value

/-! ## Characters -/

/-- A text that a document may hold as it is. -/
def IsPrintableText (text : List Char) : Prop := ∀ c ∈ text, isPrintable c = true

namespace IsPrintableText

variable {text front back : List Char} {c : Char}

@[simp]
theorem nil : IsPrintableText [] := by simp [IsPrintableText]

@[simp]
theorem cons : IsPrintableText (c :: text) ↔ isPrintable c = true ∧ IsPrintableText text := by
  simp [IsPrintableText]

@[simp]
theorem append :
    IsPrintableText (front ++ back) ↔ IsPrintableText front ∧ IsPrintableText back := by
  simp [IsPrintableText, or_imp, forall_and]

theorem spaces (count : Nat) : IsPrintableText (spaces count) := by
  intro c hc
  rw [List.eq_of_mem_replicate hc]
  rfl

theorem indentLines (h : IsPrintableText text) (indent : Nat) (lineBegins : Bool) :
    IsPrintableText (indentLines indent lineBegins text) := by
  induction text generalizing lineBegins with
  | nil => simp [Value.indentLines]
  | cons c text ih =>
    rw [cons] at h
    rw [Value.indentLines]
    split
    · exact cons.mpr ⟨h.1, ih h.2 true⟩
    · cases lineBegins <;> simp [h.1, ih h.2 false, spaces]

theorem codeDigits (width code : Nat) : IsPrintableText (Value.codeDigits width code) := by
  intro c hc
  obtain ⟨place, -, rfl⟩ := List.mem_map.mp hc
  have hdigit : ∀ value < 16, isPrintable (Hex.digit value).toUpper = true := by decide
  exact hdigit _ (Nat.mod_lt _ (by decide))

theorem escape {written : List Char} (h : Escape c written) : IsPrintableText written := by
  cases h with
  | itself hprintable => simp [hprintable]
  | letter _ _ hprintable => simp [hprintable, show isPrintable '\\' = true from rfl]
  | code _ _ _ _ hprintable =>
    simp [hprintable, codeDigits, show isPrintable '\\' = true from rfl]

theorem doubleQuoted (text : List Char) : IsPrintableText (Value.doubleQuoted text) := by
  have hescaped : IsPrintableText (text.flatMap Value.escaped) := by
    intro c hc
    obtain ⟨d, -, hmem⟩ := List.mem_flatMap.mp hc
    exact escape (escape_escaped d) c hmem
  simp [Value.doubleQuoted, hescaped, show isPrintable '"' = true from rfl]

theorem singleQuoted (h : IsPrintableText text) (indent : Nat) :
    IsPrintableText (Value.singleQuoted indent text) := by
  have hdoubled : IsPrintableText (Value.doubled text) := by
    intro c hc
    obtain ⟨d, hd, hmem⟩ := List.mem_flatMap.mp hc
    have : c = d := by split at hmem <;> simpa using hmem
    exact this ▸ h d hd
  have hclosing : IsPrintableText (Value.closing indent false text) := by
    rw [Value.closing]
    split
    · exact spaces indent
    · exact nil
  rw [Value.singleQuoted_eq]
  simp [hdoubled.indentLines, hclosing, show isPrintable apostrophe = true from rfl]

theorem literal (h : IsPrintableText text) (indent : Nat) :
    IsPrintableText (Value.literal indent text) := by
  have hhints : IsPrintableText (Block.hints text) := by
    rw [Block.hints]
    rcases Block.indentationHint_cases text with hi | hi <;>
      rcases Block.chompingHint_cases text with hc | hc | hc <;>
      rw [hi, hc] <;>
      simp [IsPrintableText] <;>
      decide
  rw [Block.hints, append] at hhints
  simp [Value.literal, hhints, h.indentLines, show isPrintable '|' = true from rfl,
    show isPrintable '\n' = true from rfl]

theorem written (indent : Nat) (text : List Char) :
    IsPrintableText (Value.written indent text) := by
  have htext (h : Style.ofText text ≠ .doubleQuoted) : IsPrintableText text :=
    fun _ hc => Style.isPrintable_of_ofText h hc
  unfold Value.written
  split
  · next h => exact (htext (by simp [h])).singleQuoted indent
  · exact doubleQuoted text
  · next h => exact (htext (by simp [h])).literal indent
  · next h => exact htext (by simp [h])
  · next h => exact htext (by simp [h])

theorem endLine (h : IsPrintableText text) : IsPrintableText (Value.endLine text) := by
  rw [Value.endLine]
  split
  · exact h
  · simp [h, show isPrintable '\n' = true from rfl]

theorem toDigits (number : Nat) : IsPrintableText (Nat.toDigits 10 number) :=
  (readsPlain_toDigits number).printable

mutual

theorem inLine (indent : Nat) : (value : Value) → IsPrintableText (Value.inLine indent value)
  | .number amount => by
    simp [Value.inLine, toDigits, show isPrintable ' ' = true from rfl,
      show isPrintable '\n' = true from rfl]
  | .text content => by
    simp [Value.inLine, (written _ _).endLine, show isPrintable ' ' = true from rfl]
  | .mapping [] => by
    simp [Value.inLine]
    decide
  | .mapping (entry :: entries) => by
    rw [Value.inLine_mapping (List.cons_ne_nil _ _)]
    exact cons.mpr ⟨rfl, lines (indent + 2) (entry :: entries)⟩

theorem lines (indent : Nat) :
    (entries : List (String × Value)) → IsPrintableText (Value.lines indent entries)
  | [] => by simp [Value.lines]
  | (name, value) :: entries => by
    have hname : IsPrintableText (Value.writtenName name.toList) := by
      rw [Value.writtenName]
      split
      · exact doubleQuoted _
      · exact written 0 _
    simp [Value.lines, spaces, hname, inLine indent value, lines indent entries,
      show isPrintable ':' = true from rfl]

end

/-- Such a text is allowed in a document and has no line break to normalize. -/
theorem isAllowed (h : IsPrintableText text) : text.all isAllowed = true := by
  refine List.all_eq_true.mpr fun c hc => ?_
  have hprintable := h c hc
  simp only [isPrintable, Bool.or_eq_true, Bool.and_eq_true, decide_eq_true_eq] at hprintable
  simp only [Yaml.isAllowed, Bool.or_eq_true, Bool.and_eq_true, decide_eq_true_eq]
  omega

theorem normalizeBreaks_eq (h : IsPrintableText text) : normalizeBreaks text = text := by
  induction text with
  | nil => rfl
  | cons c text ih =>
    rw [cons] at h
    have hreturn : c ≠ '\r' := by
      rintro rfl
      exact absurd h.1 (by decide)
    have hnextLine : c ≠ nextLine := by
      rintro rfl
      exact absurd h.1 (by decide)
    rw [normalizeBreaks.eq_def]
    simp [hreturn, hnextLine, ih h.2]

end IsPrintableText

end Telemetry.Yaml
