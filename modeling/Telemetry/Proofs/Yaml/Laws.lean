import Mathlib
import Telemetry.Yaml.Codec

/-!
# Laws of codecs

What a reader takes from a node is described without reference to the reader: a
node is a text or a number, and a record gives a value for a name once, in any
place among fields of other names, or not at all.  A codec is lawful where it reads
every node as exactly what the node is, and then a field is read as it is given.
-/

namespace Telemetry.Yaml

/-- It is laid down which nodes are texts, numbers and records, and reading succeeds
exactly on these. -/
class LawfulCodec (δ : Type) (ν : outParam Type) [Codec δ ν] where
  IsText (document : δ) (node : ν) (text : String) : Prop
  /-- The node is an unsigned number of at most `limit`. -/
  IsNumber (document : δ) (limit : Nat) (node : ν) (number : Nat) : Prop
  /-- The node is a record with fields in this order.  What they hold may be anything. -/
  HasFields (document : δ) (node : ν) (fields : List (String × ν)) : Prop
  text_eq_ok_iff {document : δ} {node : ν} {text : String} :
    Codec.text document node = .ok text ↔ IsText document node text
  number_eq_ok_iff {document : δ} {limit : Nat} {node : ν} {number : Nat} :
    Codec.number document limit node = .ok number ↔ IsNumber document limit node number
  number_le {document : δ} {limit : Nat} {node : ν} {number : Nat}
    (h : IsNumber document limit node number) : number ≤ limit
  fields_eq_ok_iff {document : δ} {node : ν} {fields : List (String × ν)} :
    Codec.fields document node = .ok fields ↔ HasFields document node fields

open LawfulCodec

/-- The fields give a value for a name or leave it open.  A name occurs at most once,
in any place. -/
inductive Gives {ν α : Type} (IsValue : ν → α → Prop) (name : String)
    (fields : List (String × ν)) : Option α → Prop where
  | nothing (hfields : ∀ field ∈ fields, field.1 ≠ name) : Gives IsValue name fields none
  | value {node : ν} {value : α} {others : List (String × ν)}
      (hfields : fields.Perm ((name, node) :: others)) (hothers : ∀ field ∈ others, field.1 ≠ name)
      (hvalue : IsValue node value) : Gives IsValue name fields (some value)

theorem Gives.of_append {ν α : Type} {IsValue : ν → α → Prop} {name : String} {node : ν}
    {value : α} (before : List (String × ν)) {after : List (String × ν)}
    (hothers : ∀ field ∈ before ++ after, field.1 ≠ name)
    (hvalue : IsValue node value) :
    Gives IsValue name (before ++ (name, node) :: after) (some value) :=
  .value List.perm_middle hothers hvalue

/-! ## Readers that succeed -/

theorem bind_eq_ok_iff {α β : Type} {result : Except Fault α} {next : α → Except Fault β}
    {value : β} :
    (result >>= next) = .ok value ↔ ∃ found, result = .ok found ∧ next found = .ok value := by
  cases result <;> simp [bind, Except.bind]

theorem mapM_eq_ok_iff {α β : Type} {read : α → Except Fault β} {items : List α}
    {results : List β} :
    items.mapM read = .ok results ↔
      List.Forall₂ (fun item result => read item = .ok result) items results := by
  induction items generalizing results with
  | nil => cases results <;> simp [pure, Except.pure]
  | cons item items ih =>
    rw [List.mapM_cons, List.forall₂_cons_left_iff]
    simp only [← ih]
    cases read item with
    | error fault => simp [bind, Except.bind]
    | ok result => cases items.mapM read <;> simp [bind, Except.bind, pure, Except.pure, eq_comm]

/-! ## Words -/

section Words

variable {δ ν : Type} [Codec δ ν] [LawfulCodec δ ν] {document : δ} {node : ν}

def IsWord64 (document : δ) (node : ν) (word : UInt64) : Prop :=
  IsNumber document (UInt64.size - 1) node word.toNat

def IsWord32 (document : δ) (node : ν) (word : UInt32) : Prop :=
  IsNumber document (UInt32.size - 1) node word.toNat

/-- A number that was read within `limit` is the only word of that number. -/
theorem map_number_eq_ok_iff {ω : Type} {ofNat : Nat → ω} {toNat : ω → Nat} {limit : Nat} {word : ω}
    (hofNat : ∀ number ≤ limit, toNat (ofNat number) = number) (htoNat : toNat.Injective) :
    (Codec.number document limit node).map ofNat = .ok word ↔
      IsNumber document limit node (toNat word) := by
  rw [← number_eq_ok_iff]
  cases h : Codec.number document limit node with
  | error fault => simp [Except.map]
  | ok number =>
    have hword : toNat (ofNat number) = number := hofNat number (number_le (number_eq_ok_iff.mp h))
    simp only [Except.map, Except.ok.injEq]
    rw [← htoNat.eq_iff, hword]

theorem word64_eq_ok_iff {word : UInt64} :
    Codec.word64 document node = .ok word ↔ IsWord64 document node word :=
  map_number_eq_ok_iff
    (fun _ h => UInt64.toNat_ofNat_of_lt' (Nat.lt_of_le_pred (by decide) h))
    fun _ _ => UInt64.toNat_inj.mp

theorem word32_eq_ok_iff {word : UInt32} :
    Codec.word32 document node = .ok word ↔ IsWord32 document node word :=
  map_number_eq_ok_iff
    (fun _ h => UInt32.toNat_ofNat_of_lt' (Nat.lt_of_le_pred (by decide) h))
    fun _ _ => UInt32.toNat_inj.mp

end Words

/-! ## Fields -/

section Fields

variable {ν : Type} {node : ν} {fields : List (String × ν)}

theorem filter_eq_nil_iff {name : String} :
    fields.filter (·.1 = name) = [] ↔ ∀ field ∈ fields, field.1 ≠ name := by
  simp [List.filter_eq_nil_iff]

/-- One field has the name where it can be brought to the front of others that have not. -/
theorem filter_eq_singleton_iff {name found : String} :
    fields.filter (·.1 = name) = [(found, node)] ↔
      found = name ∧ ∃ others, fields.Perm ((name, node) :: others) ∧
        ∀ field ∈ others, field.1 ≠ name := by
  constructor
  · intro hfilter
    have hmem : (found, node) ∈ fields.filter (·.1 = name) := by simp [hfilter]
    have hfound : found = name := by simpa using (List.mem_filter.mp hmem).2
    have hpartition := List.filter_append_perm (·.1 = name) fields
    rw [hfilter, hfound] at hpartition
    exact ⟨hfound, _, hpartition.symm, by simp⟩
  · rintro ⟨rfl, others, hfields, hothers⟩
    rw [← List.perm_singleton]
    simpa [filter_eq_nil_iff.mpr hothers] using hfields.filter (·.1 = found)

/-- A field is read as it is given, or falls back. -/
theorem field_eq_ok_iff {α β : Type} {IsValue : ν → α → Prop} {name : String}
    {read : ν → Except Fault β} {fallback result : β} (complete : α → β)
    (hread : ∀ {node result}, read node = .ok result ↔
      ∃ value, IsValue node value ∧ complete value = result) :
    Codec.field fields name fallback read = .ok result ↔
      ∃ given, Gives IsValue name fields given ∧ (given.map complete).getD fallback = result := by
  constructor
  · intro h
    unfold Codec.field at h
    split at h
    · next hfilter =>
      cases h
      exact ⟨none, .nothing (filter_eq_nil_iff.mp hfilter), rfl⟩
    · next found node hfilter =>
      obtain ⟨-, others, hfields, hothers⟩ := filter_eq_singleton_iff.mp hfilter
      obtain ⟨value, hvalue, hresult⟩ := hread.mp h
      exact ⟨some value, .value hfields hothers hvalue, hresult⟩
    · cases h
  · rintro ⟨given, hgives, rfl⟩
    cases hgives with
    | nothing hfields =>
      rw [Codec.field, filter_eq_nil_iff.mpr hfields]
      rfl
    | @value node value others hfields hothers hvalue =>
      rw [Codec.field, filter_eq_singleton_iff.mpr ⟨rfl, others, hfields, hothers⟩]
      exact hread.mpr ⟨value, hvalue, rfl⟩

/-- Where nothing is to be completed a field is read as it is given. -/
theorem plain_field_eq_ok_iff {α : Type} {IsValue : ν → α → Prop} {name : String}
    {read : ν → Except Fault α} {fallback result : α}
    (hread : ∀ {node result}, read node = .ok result ↔ IsValue node result) :
    Codec.field fields name fallback read = .ok result ↔
      ∃ given, Gives IsValue name fields given ∧ given.getD fallback = result := by
  have hcomplete {node : ν} {result : α} : read node = .ok result ↔
      ∃ value, IsValue node value ∧ id value = result := by
    simp [hread]
  simpa using field_eq_ok_iff id hcomplete

end Fields

end Telemetry.Yaml
