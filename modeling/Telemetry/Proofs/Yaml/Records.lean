import Telemetry.Proofs.Yaml.Laws
import Telemetry.Yaml.Content

/-!
# Nodes as texts, numbers and records

What a node of a document is shows once its alias is resolved: any scalar is a
text, a number is a plain scalar or a literal block with the tag of integers, and a
mapping is a record where its keys are texts.
-/

namespace Telemetry.Yaml

/-! ## Numbers -/

theorem Schema.magnitude?_le {limit number : Nat} {text : List Char}
    (h : magnitude? limit text = some number) : number ≤ limit := by
  have hle {value : Option Nat} (hvalue : atMost limit value = some number) : number ≤ limit := by
    simpa using (Option.filter_eq_some_iff.mp hvalue).2
  rw [magnitude?, Option.orElse_eq_orElse, Option.orElse_eq_or, Option.or_eq_some_iff] at h
  rcases h with h | ⟨-, h⟩
  · obtain ⟨_, -, h⟩ := Option.bind_eq_some_iff.mp h
    exact hle h
  · exact hle h

theorem Schema.unsigned?_le {limit number : Nat} {text : List Char}
    (h : unsigned? limit text = some number) : number ≤ limit := by
  unfold unsigned? at h
  split at h
  · cases h
  · split at h <;> exact magnitude?_le h

namespace Document

/-! ## What a node is -/

/-- The node is a text, whatever its style. -/
def IsText (document : Document) (node : Node) (text : String) : Prop :=
  ∃ properties style, document.resolve node = .scalar properties style text

/-- The node is an unsigned number of at most `limit`. -/
def IsNumber (document : Document) (limit : Nat) (node : Node) (number : Nat) : Prop :=
  ∃ properties style text, document.resolve node = .scalar properties style text ∧
    (style = .plain ∨ style = .literal ∧ properties.tag = some Schema.integerTag) ∧
    Schema.unsigned? limit text.toList = some number

/-- The node is a record with fields in this order.  What they hold may be anything. -/
inductive HasFields (document : Document) (node : Node) : List (String × Node) → Prop where
  | mapping {properties : Properties} {entries : List (Node × Node)}
      {fields : List (String × Node)} (hnode : document.resolve node = .mapping properties entries)
      (hfields : List.Forall₂
        (fun entry field => IsText document entry.1 field.1 ∧ entry.2 = field.2) entries fields) :
      HasFields document node fields
  | nothing {properties : Properties}
      (hnode : document.resolve node = .scalar properties .plain "") :
      HasFields document node []

variable {document : Document} {node : Node} {fields : List (String × Node)}

/-! ## What is read from a node -/

theorem text_eq_ok_iff {text : String} :
    document.text node = .ok text ↔ IsText document node text := by
  unfold Document.text IsText
  split <;> simp_all

theorem number_eq_ok_iff {limit number : Nat} :
    document.number limit node = .ok number ↔ IsNumber document limit node number := by
  unfold Document.number IsNumber
  split
  · next properties style text hnode =>
    by_cases hstyle : style = .plain ∨ style = .literal ∧ properties.tag = some Schema.integerTag
    · cases hnumber : Schema.unsigned? limit text.toList <;> simp_all
    · rw [if_neg (by simpa using hstyle)]
      simp only [hnode, reduceCtorEq, Node.scalar.injEq, false_iff, not_exists, not_and]
      rintro _ _ _ ⟨rfl, rfl, rfl⟩ hallowed
      exact absurd hallowed hstyle
  · next hnode =>
    refine ⟨nofun, ?_⟩
    rintro ⟨properties, style, text, hscalar, -⟩
    exact absurd hscalar (hnode _ _ _)

theorem IsNumber.le {limit number : Nat} (h : IsNumber document limit node number) :
    number ≤ limit := by
  obtain ⟨_, _, _, -, -, hnumber⟩ := h
  exact Schema.unsigned?_le hnumber

/-- An entry is a field where its key is a text. -/
theorem entry_eq_ok_iff {entry : Node × Node} {field : String × Node} :
    (do return (← document.text entry.1, entry.2) : Except Fault (String × Node)) = .ok field ↔
      IsText document entry.1 field.1 ∧ entry.2 = field.2 := by
  rw [← text_eq_ok_iff]
  cases document.text entry.1 <;>
    simp [bind, Except.bind, pure, Except.pure, Prod.ext_iff]

/-- Fields are read exactly from records. -/
theorem fields_eq_ok_iff : document.fields node = .ok fields ↔ HasFields document node fields := by
  unfold Document.fields
  split
  · next properties entries hnode =>
    rw [mapM_eq_ok_iff]
    simp only [entry_eq_ok_iff]
    refine ⟨.mapping hnode, fun h => ?_⟩
    cases h with
    | mapping hnode' hfields =>
      rw [hnode] at hnode'
      cases hnode'
      exact hfields
    | nothing hnode' => simp [hnode] at hnode'
  · next properties hnode =>
    constructor
    · rintro ⟨⟩
      exact .nothing hnode
    · intro h
      cases h with
      | mapping hnode' _ => simp [hnode] at hnode'
      | nothing _ => rfl
  · next hmapping hnothing =>
    refine ⟨nofun, fun h => ?_⟩
    cases h with
    | mapping hnode _ => exact absurd hnode (hmapping _ _)
    | nothing hnode => exact absurd hnode (hnothing _)

end Document

open Document in
instance : LawfulCodec Document Node where
  IsText := IsText
  IsNumber := IsNumber
  HasFields := HasFields
  text_eq_ok_iff := text_eq_ok_iff
  number_eq_ok_iff := number_eq_ok_iff
  number_le := IsNumber.le
  fields_eq_ok_iff := fields_eq_ok_iff

/-! ## Records that are written down -/

/-- A mapping with plain names. -/
def Node.record (fields : List (String × Node)) : Node :=
  .mapping {} (fields.map fun (name, value) => (.scalar {} .plain name, value))

theorem Document.hasFields_record (document : Document) (fields : List (String × Node)) :
    document.HasFields (.record fields) fields := by
  refine .mapping rfl ?_
  induction fields with
  | nil => exact .nil
  | cons field fields ih => exact .cons ⟨⟨{}, .plain, rfl⟩, rfl⟩ ih

end Telemetry.Yaml
