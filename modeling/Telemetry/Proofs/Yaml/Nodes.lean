import Telemetry.Proofs.Yaml.Lexing
import Telemetry.Proofs.Yaml.Records

/-!
# Written values as documents

A codec reads back where the document written for a value spells the value out.
Here the grammar reads the tokens of a value as one node, and so the text of a
mapping as a document that holds the mapping.
-/

namespace Telemetry.Yaml

/-! ## Values in documents -/

namespace Value

open LawfulCodec

mutual

/-- The node is the value: a number for every limit that leaves room for it, a text, or
a record of the entries in their order. -/
def SpelledBy {δ ν : Type} [Codec δ ν] [LawfulCodec δ ν] (document : δ) : Value → ν → Prop
  | .number amount, node =>
    ∀ limit < UInt64.size, amount ≤ limit → IsNumber document limit node amount
  | .text content, node => IsText document node content
  | .mapping entries, node =>
    ∃ fields, HasFields document node fields ∧ EntriesSpelledBy document entries fields

def EntriesSpelledBy {δ ν : Type} [Codec δ ν] [LawfulCodec δ ν] (document : δ) :
    List (String × Value) → List (String × ν) → Prop
  | [], fields => fields = []
  | (name, value) :: entries, fields => ∃ node others, fields = (name, node) :: others ∧
    value.SpelledBy document node ∧ EntriesSpelledBy document entries others

end

end Value

section Words

variable {δ ν : Type} [Codec δ ν] [LawfulCodec δ ν] {document : δ} {node : ν}

theorem isWord64_of_spelledBy {word : UInt64}
    (h : (Value.number word.toNat).SpelledBy document node) : IsWord64 document node word :=
  h _ (by decide) (Nat.le_pred_of_lt word.toNat_lt)

theorem isWord32_of_spelledBy {word : UInt32}
    (h : (Value.number word.toNat).SpelledBy document node) : IsWord32 document node word :=
  h _ (by decide) (Nat.le_pred_of_lt word.toNat_lt)

end Words

/-- What is written for a mapping is a document that spells it out. -/
class ReadsBack (δ : Type) (ν : outParam Type) [Codec δ ν] [LawfulCodec δ ν] : Prop where
  ofText_render {entries : List (String × Value)} (h : (Value.mapping entries).IsReadable) :
    ∃ (document : δ) (node : ν),
      Codec.ofText (Codec.render δ (.mapping entries)) = .ok document ∧
        Codec.root document = some node ∧ (Value.mapping entries).SpelledBy document node

/-! ## The node of a value -/

mutual

/-- What a value reads back as. -/
def Value.toNode : Value → Node
  | .number amount => .scalar {} .plain (toString amount)
  | .text content => .scalar {} (Style.ofText content.toList) content
  | .mapping entries => .mapping {} (entryNodes entries)

def Value.entryNodes : List (String × Value) → List (Node × Node)
  | [] => []
  | (name, value) :: entries => (.scalar {} .plain name, value.toNode) :: entryNodes entries

end

/-- A mapping reads back as the record of its entries. -/
theorem Value.toNode_mapping (entries : List (String × Value)) :
    (Value.mapping entries).toNode =
      .record (entries.map fun (name, value) => (name, value.toNode)) := by
  rw [toNode, Node.record]
  congr 1
  induction entries with
  | nil => rfl
  | cons entry entries ih => rw [entryNodes, ih]; rfl

section Spelling

variable (document : Document)

mutual

theorem Value.spelledBy_toNode (value : Value) : value.SpelledBy document value.toNode := by
  match value with
  | .number amount =>
    intro limit _ hamount
    exact ⟨{}, .plain, _, rfl, .inl rfl,
      by rw [Numeral.toList_toString, Schema.unsigned?_toDigits hamount]⟩
  | .text content => exact ⟨{}, _, rfl⟩
  | .mapping entries =>
    rw [toNode_mapping]
    exact ⟨_, document.hasFields_record _, entriesSpelledBy_map entries⟩

theorem Value.entriesSpelledBy_map (entries : List (String × Value)) :
    EntriesSpelledBy document entries (entries.map fun (name, value) => (name, value.toNode)) := by
  match entries with
  | [] => rfl
  | (name, value) :: entries =>
    exact ⟨value.toNode, _, rfl, value.spelledBy_toNode, entriesSpelledBy_map entries⟩

end

end Spelling

namespace Reading

variable {anchors : List (String × Nat)} {handles : List (String × Bytes)} {token : Token}
  {rest : List Token} {inBlock indentless : Bool} {fuel : Nat}

/-! ## One step of the grammar -/

theorem node_scalar (style : Style) (text : String) :
    node inBlock indentless (fuel + 1) ⟨.scalar style text :: rest, anchors, handles⟩ =
      .ok (.scalar {} style text, ⟨rest, anchors, handles⟩) := by
  rw [node]
  rfl

theorem node_mapping {entries : List (Node × Node)} {source : Source}
    (h : blockEntries fuel ⟨rest, anchors, handles⟩ = .ok (entries, source)) :
    node true indentless (fuel + 1) ⟨.blockMappingStart :: rest, anchors, handles⟩ =
      .ok (.mapping {} entries, source) := by
  have hstep : node true indentless (fuel + 1) ⟨.blockMappingStart :: rest, anchors, handles⟩ =
      (blockEntries fuel ⟨rest, anchors, handles⟩).bind fun (entries, source) =>
        .ok (.mapping {} entries, source) := by
    rw [node]
    rfl
  rw [hstep, h]
  rfl

theorem blockEntries_end :
    blockEntries (fuel + 1) ⟨.blockEnd :: rest, anchors, handles⟩ =
      .ok ([], ⟨rest, anchors, handles⟩) := by
  rw [blockEntries]
  rfl

/-- An entry with a scalar for its key. -/
theorem blockEntries_entry {style : Style} {name : String} {value : Node} {source last : Source}
    {entries : List (Node × Node)}
    (hvalue : optionalNode true true [.key, .value, .blockEnd] (fuel + 2)
      ⟨rest, anchors, handles⟩ = .ok (value, source))
    (hentries : blockEntries (fuel + 2) source = .ok (entries, last)) :
    blockEntries (fuel + 3) ⟨.key :: .scalar style name :: .value :: rest, anchors, handles⟩ =
      .ok ((.scalar {} style name, value) :: entries, last) := by
  have hstep : blockEntries (fuel + 3)
        ⟨.key :: .scalar style name :: .value :: rest, anchors, handles⟩ =
      (optionalNode true true [.key, .value, .blockEnd] (fuel + 2)
          ⟨rest, anchors, handles⟩).bind fun (value, source) =>
        (blockEntries (fuel + 2) source).bind fun (entries, last) =>
          .ok ((.scalar {} style name, value) :: entries, last) := by
    rw [blockEntries]
    rfl
  rw [hstep, hvalue]
  simp only [Except.bind, hentries]

/-- A node that is there is read. -/
theorem optionalNode_eq {ends : List Token} (h : ends.contains token = false) :
    optionalNode inBlock indentless ends (fuel + 1) ⟨token :: rest, anchors, handles⟩ =
      node inBlock indentless fuel ⟨token :: rest, anchors, handles⟩ := by
  have hstep : optionalNode inBlock indentless ends (fuel + 1) ⟨token :: rest, anchors, handles⟩ =
      (if ends.contains token then pure .nothing else node inBlock indentless fuel : Reading Node)
        ⟨token :: rest, anchors, handles⟩ := by
    rw [optionalNode]
    rfl
  rw [hstep, h]
  rfl

/-! ## Whole values -/

/-- A value begins with none of the tokens that end one. -/
theorem exists_tokens (value : Value) :
    ∃ token rest, value.tokens = token :: rest ∧
      [Token.key, .value, .blockEnd].contains token = false := by
  cases value with
  | number | text => exact ⟨_, _, rfl, rfl⟩
  | mapping entries => exact ⟨.blockMappingStart, _, rfl, rfl⟩

mutual

theorem node_tokens (indentless : Bool) (rest : List Token) (fuel : Nat) (value : Value)
    (h : value.tokens.length ≤ fuel) :
    node true indentless fuel ⟨value.tokens ++ rest, anchors, handles⟩ =
      .ok (value.toNode, ⟨rest, anchors, handles⟩) := by
  match value, fuel with
  | .number amount, fuel + 1 => exact node_scalar _ _
  | .text content, fuel + 1 => exact node_scalar _ _
  | .mapping entries, fuel + 1 =>
    simp only [Value.tokens, List.length_append, List.length_cons, List.length_nil] at h
    rw [Value.tokens, List.cons_append, List.cons_append, List.append_assoc,
      List.singleton_append, Value.toNode]
    exact node_mapping (blockEntries_tokens entries (by omega))
  | .number amount, 0 => simp [Value.tokens] at h
  | .text content, 0 => simp [Value.tokens] at h
  | .mapping entries, 0 => simp [Value.tokens] at h

theorem blockEntries_tokens {rest : List Token} {fuel : Nat} (entries : List (String × Value))
    (h : (Value.entryTokens entries).length + 1 ≤ fuel) :
    blockEntries fuel ⟨Value.entryTokens entries ++ .blockEnd :: rest, anchors, handles⟩ =
      .ok (Value.entryNodes entries, ⟨rest, anchors, handles⟩) := by
  match entries, fuel with
  | [], fuel + 1 => exact blockEntries_end
  | [], 0 => simp at h
  | (name, value) :: entries, fuel =>
    simp only [Value.entryTokens, List.cons_append, List.length_cons, List.length_append] at h
    obtain ⟨fuel, rfl⟩ := Nat.exists_eq_add_of_le' (show 3 ≤ fuel by omega)
    obtain ⟨token, tokens, htokens, hends⟩ := exists_tokens value
    have hvalue := node_tokens true (Value.entryTokens entries ++ .blockEnd :: rest) (fuel + 1)
      value (by omega)
    rw [htokens, List.cons_append, ← optionalNode_eq hends] at hvalue
    rw [Value.entryTokens, Value.entryNodes, htokens]
    simp only [List.cons_append, List.append_assoc]
    exact blockEntries_entry hvalue (blockEntries_tokens entries (by omega))

end

/-- A mapping without directives in front and with nothing behind is a document. -/
theorem document_mapping {node : Node}
    (h : Reading.node true false fuel ⟨.blockMappingStart :: rest, [], standardHandles⟩ =
      .ok (node, ⟨[], [], standardHandles⟩)) :
    document fuel { tokens := .blockMappingStart :: rest } =
      .ok ({ root := some node }, ⟨[], [], standardHandles⟩) := by
  have hstep : document fuel { tokens := .blockMappingStart :: rest } =
      (Reading.node true false fuel ⟨.blockMappingStart :: rest, [], standardHandles⟩).bind
        fun (node, source) =>
          (do
            documentEnds (fuel + 1)
            if (← peek?).isSome then throw .severalDocuments
            return { root := some node } : Reading Document) source := by
    rw [document]
    rfl
  rw [hstep, h]
  rfl

end Reading

/-- The text of a mapping is a document that holds the mapping. -/
theorem Document.ofText_render {entries : List (String × Value)}
    (h : (Value.mapping entries).IsReadable) :
    Document.ofText (Value.mapping entries).render =
      .ok { root := some (Value.mapping entries).toNode } := by
  have hfuel : (Value.mapping entries).tokens.length ≤
      Reading.enough (Value.mapping entries).tokens := by
    rw [Reading.enough]
    omega
  have hnode := @Reading.node_tokens [] Reading.standardHandles false [] _ (.mapping entries) hfuel
  rw [List.append_nil] at hnode
  have hdocument := Reading.document_mapping hnode
  rw [Document.ofText, Token.ofText_render h]
  simp only [bind, Except.bind, StateT.run]
  exact congrArg (Except.bind · fun result => .ok result.1) hdocument

instance : ReadsBack Document Node where
  ofText_render h := ⟨_, _, Document.ofText_render h, rfl, Value.spelledBy_toNode _ _⟩

end Telemetry.Yaml
