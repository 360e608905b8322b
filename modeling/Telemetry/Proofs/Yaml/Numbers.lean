import Telemetry.Proofs.Text.Numerals
import Telemetry.Proofs.Yaml.PlainScalars

/-!
# Numbers read back

A number is written in decimal without a sign or a leading zero.  Such a text is
a plain scalar, and what it denotes is the number.
-/

namespace Telemetry.Yaml

theorem isDigit_of_mem_toDigits {number : Nat} {c : Char} (h : c ∈ Nat.toDigits 10 number) :
    c.isDigit = true :=
  Nat.isDigit_of_mem_toDigits (by decide) (by decide) h

/-- A number above 0 is not written with a zero in front. -/
theorem head?_toDigits {number : Nat} (h : 0 < number) :
    (Nat.toDigits 10 number).head? ≠ some '0' := by
  induction number using Nat.strongRecOn with
  | ind number ih =>
    by_cases hlt : number < 10
    · have hdigit : ∀ digit < 10, 0 < digit → digit.digitChar ≠ '0' := by decide
      rw [Nat.toDigits_of_lt_base hlt]
      simpa using hdigit number hlt h
    · rw [Nat.toDigits_of_base_le (by decide) (by omega),
        List.head?_append_of_ne_nil _ Nat.toDigits_ne_nil]
      exact ih (number / 10) (by omega) (by omega)

section Digits

variable {text : List Char} {c : Char}

theorem ne_of_isDigit (h : c.isDigit = true) {d : Char} (hd : d.isDigit = false) : c ≠ d := by
  rintro rfl
  rw [h] at hd
  cases hd

theorem not_mem_of_isDigit (h : c.isDigit = true) {others : List Char}
    (hothers : others.all (!·.isDigit) = true) : others.contains c = false := by
  rw [Bool.eq_false_iff, ne_eq, List.contains_iff_mem]
  intro hmem
  simpa [h] using List.all_eq_true.mp hothers c hmem

theorem not_isSpace_of_isDigit (h : c.isDigit = true) : isSpace c = false := by
  have := ne_of_isDigit h (d := ' ') rfl
  have := ne_of_isDigit h (d := '\t') rfl
  have := ne_of_isDigit h (d := '\n') rfl
  have := ne_of_isDigit h (d := lineSeparator) rfl
  have := ne_of_isDigit h (d := paragraphSeparator) rfl
  simp_all [isSpace, isBlank, isBreak]

theorem isPrintable_of_isDigit (h : c.isDigit = true) : isPrintable c = true := by
  simp only [Char.isDigit, Bool.and_eq_true, decide_eq_true_eq, ge_iff_le, UInt32.le_iff_toNat_le]
    at h
  have hrange : 0x20 ≤ c.toNat ∧ c.toNat ≤ 0x7E :=
    ⟨le_trans (by decide) h.1, le_trans h.2 (by decide)⟩
  simp [isPrintable, hrange]

theorem Style.hasPair_of_forall {first second : Char → Bool} {text : List Char}
    (h : ∀ c ∈ text, second c = false) : hasPair first second text = false := by
  induction text with
  | nil => rfl
  | cons c text ih =>
    cases text with
    | nil => rfl
    | cons d text =>
      rw [hasPair, h d (by simp), Bool.and_false, Bool.false_or]
      exact ih fun e he => h e (List.mem_cons_of_mem c he)

/-- Digits are nothing else than themselves to a reader of plain text. -/
theorem readsPlain_of_isDigit (hne : text ≠ []) (h : ∀ c ∈ text, c.isDigit = true) :
    ReadsPlain text := by
  obtain ⟨c, rest, rfl⟩ := List.exists_cons_of_ne_nil hne
  have hc := h c List.mem_cons_self
  have hlast (d : Char) (hd : d.isDigit = false) : (c :: rest).getLast? ≠ some d := fun heq =>
    ne_of_isDigit (h d (List.mem_of_getLast? heq)) hd rfl
  have hmarker (marker : List Char) (hm : marker.head?.all (!·.isDigit) = true) :
      String.ofList (c :: rest.take 2) ≠ String.ofList marker := by
    rw [ne_eq, String.ofList_inj]
    rintro rfl
    simp [hc] at hm
  refine ⟨hne, fun d hd => isPrintable_of_isDigit (h d hd), ?_⟩
  simp only [Style.refusesPlain, Style.beginsLikeMarkup, Bool.or_eq_false_iff,
    decide_eq_false_iff_not]
  refine ⟨⟨⟨⟨⟨⟨⟨⟨?_, ?_⟩, ?_⟩, ?_⟩, hlast ' ' rfl⟩, ?_⟩, hlast ':' rfl⟩, ?_⟩, ?_⟩
  · exact not_mem_of_isDigit hc (by decide)
  · simp [ne_of_isDigit hc (d := '?') rfl, ne_of_isDigit hc (d := '-') rfl]
  · simp only [List.contains_cons, List.contains_nil, Bool.or_false, Bool.or_eq_false_iff,
      beq_eq_false_iff_ne]
    exact ⟨hmarker ['-', '-', '-'] rfl, hmarker ['.', '.', '.'] rfl⟩
  · simpa using ne_of_isDigit hc (d := ' ') rfl
  · exact Style.hasPair_of_forall fun d hd => not_isSpace_of_isDigit (h d hd)
  · exact Style.hasPair_of_forall fun d hd => by simpa using ne_of_isDigit (h d hd) (d := '#') rfl
  · exact List.any_eq_false.mpr fun d hd => by
      simp [isBreak_of_not_isSpace (not_isSpace_of_isDigit (h d hd))]

end Digits

theorem readsPlain_toDigits (number : Nat) : ReadsPlain (Nat.toDigits 10 number) :=
  readsPlain_of_isDigit Nat.toDigits_ne_nil fun _ => isDigit_of_mem_toDigits

/-! ## What the digits denote -/

namespace Schema

theorem withoutSign_toDigits (number : Nat) :
    withoutSign (Nat.toDigits 10 number) = Nat.toDigits 10 number := by
  obtain ⟨c, rest, heq⟩ := List.exists_cons_of_ne_nil (Nat.toDigits_ne_nil (n := number) (b := 10))
  have hc : c.isDigit = true := isDigit_of_mem_toDigits (heq ▸ List.mem_cons_self)
  have hsign : isSign c = false := by
    simp [isSign, ne_of_isDigit hc (d := '+') rfl, ne_of_isDigit hc (d := '-') rfl]
  rw [heq, withoutSign, hsign]
  rfl

theorem not_isPadded_toDigits (number : Nat) : isPadded (Nat.toDigits 10 number) = false := by
  rw [isPadded, withoutSign_toDigits]
  rcases Nat.eq_zero_or_pos number with rfl | hpos
  · rfl
  · have hhead := head?_toDigits hpos
    split
    · next heq => simp [heq] at hhead
    · rfl

theorem radix?_toDigits (number : Nat) : radix? (Nat.toDigits 10 number) = none := by
  have hdigit (c : Char) (hc : c ∈ Nat.toDigits 10 number) := isDigit_of_mem_toDigits hc
  unfold radix?
  split
  · next heq => exact absurd (hdigit 'x' (by simp [heq])) (by decide)
  · next heq => exact absurd (hdigit 'o' (by simp [heq])) (by decide)
  · next heq => exact absurd (hdigit 'b' (by simp [heq])) (by decide)
  · rfl

/-- Reading a number that was written gives the number. -/
theorem unsigned?_toDigits {limit number : Nat} (h : number ≤ limit) :
    unsigned? limit (Nat.toDigits 10 number) = some number := by
  have hmagnitude : magnitude? limit (Nat.toDigits 10 number) = some number := by
    simp [magnitude?, radix?_toDigits, Numeral.ofDigits?_toDigits, atMost, h]
  have hplus (digits : List Char) : Nat.toDigits 10 number ≠ '+' :: digits := fun heq =>
    absurd (isDigit_of_mem_toDigits (heq ▸ List.mem_cons_self)) (by decide : '+'.isDigit ≠ true)
  rw [unsigned?, not_isPadded_toDigits, if_neg (by decide)]
  · exact hmagnitude
  · exact hplus

end Schema

end Telemetry.Yaml
