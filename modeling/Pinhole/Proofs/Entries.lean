import Mathlib.Data.List.Nodup
import Pinhole.Yaml.Document

/-!
# From tokens to values

A `Field` is a named value with the tokens that it is read from, and the proof that it is. The fields
of a mapping make up a value, which may be a field again: `Field.nested`. So a document of sections is
read as the record of its sections (`read_of_fields`), whatever is in them.
-/

namespace Pinhole.Yaml

open Reading

/-! ## Nodes and values -/

/-- Tokens that are read as a node wherever a block may stand. -/
structure ReadAs (ts : List Token) (n : Node) : Prop where
  filled : ts ≠ []
  begins : ∀ t ∈ ts.head?, t ∉ mappingStops
  node : ∀ (fuel : Nat) (place : Place) (r : Reading) (rest : List Token), 2 * ts.length ≤ fuel →
    place ≠ .flow → r.tokens = ts ++ rest → r.node fuel place = .ok (n, { r with tokens := rest })

/-- A node that has a value, which is made with the fuel that its depth gives. -/
def Node.HasValue (n : Node) (v : Value) : Prop :=
  ∀ fuel, n.depth ≤ fuel → n.build fuel = ⟨v, none⟩

/-- A named value, with the tokens that it is read from and the node in between. -/
structure Field where
  name : String
  tokens : List Token
  node : Node
  value : Value
  isText : Tag.resolve name = .str
  reads : ReadAs tokens node
  means : node.HasValue value

namespace Field

/-- The tokens of an entry of a mapping. -/
def entry (f : Field) : List Token := [.key, .scalar .plain ⟨f.name, false⟩, .value] ++ f.tokens

/-- The nodes of an entry of a mapping. -/
def nodes (f : Field) : Node × Node := (.scalar .str ⟨f.name, false⟩, f.node)

/-- The entry of a record. -/
def pair (f : Field) : Value × Value := (.text f.name, f.value)

/-- The tokens of a mapping. -/
def mapping (fs : List Field) : List Token := .blockMappingStart :: fs.flatMap entry ++ [.blockEnd]

end Field

/-! ## Reading nodes -/

section Nodes

variable {ts rest : List Token} {n : Node} {r : Reading} {fuel : Nat}

theorem peek_of_tokens {t : Token} (h : r.tokens = t :: rest) : r.peek = .ok t := by
  rw [peek, h]

theorem next_of_tokens {t : Token} (h : r.tokens = t :: rest) : r.next = { r with tokens := rest } := by
  rw [next, h]
  rfl

/-- A node without properties is what its first token begins. -/
theorem node_of_body {place : Place} {t : Token} {r' : Reading}
    (bare : t = .blockMappingStart ∨ ∃ style s, t = .scalar style s) (peeks : r.peek = .ok t)
    (reads : body fuel place {} t r = .ok (n, r')) : r.node (fuel + 1) place = .ok (n, r') := by
  rcases bare with rfl | ⟨style, s, rfl⟩ <;>
    simp [Reading.node, properties, peeks, openAnchor, reads, closeAnchor, bind, Except.bind, pure,
      Except.pure]

/-- A scalar is read as a node of its own. -/
theorem ReadAs.scalar (style : ScalarStyle) (s : String) :
    ReadAs [.scalar style ⟨s, false⟩] (.scalar (scalarTag {} style s) ⟨s, false⟩) := by
  refine ⟨by simp, by simp [mappingStops], fun fuel place r rest enough _ tokens => ?_⟩
  obtain ⟨fuel, rfl⟩ : ∃ m, fuel = m + 2 := ⟨fuel - 2, by simp at enough; omega⟩
  refine node_of_body (.inr ⟨style, _, rfl⟩) (peek_of_tokens tokens) ?_
  rw [body, next_of_tokens tokens]
  rfl

/-- A node that may be missing is read if it is there. -/
theorem ReadAs.nodeOr (h : ReadAs ts n) (enough : 2 * ts.length ≤ fuel)
    (tokens : r.tokens = ts ++ rest) :
    r.nodeOr (fuel + 1) .blockValue mappingStops = .ok (n, { r with tokens := rest }) := by
  obtain ⟨t, ts, rfl⟩ := List.exists_cons_of_ne_nil h.filled
  have sees : r.sees mappingStops = .ok false := by
    rw [Reading.sees, peek_of_tokens tokens]
    simpa [Except.map] using h.begins t rfl
  rw [Reading.nodeOr, sees]
  exact h.node fuel .blockValue r rest enough nofun tokens

/-- An entry of a mapping is read. -/
theorem blockEntries_entry (f : Field) {tag : Tag} {acc : List (Node × Node)}
    (enough : 2 * f.entry.length ≤ fuel) (tokens : r.tokens = f.entry ++ rest) :
    r.blockEntries (fuel + 1) tag acc =
      blockEntries fuel tag (f.nodes :: acc) { r with tokens := rest } := by
  simp only [Field.entry, List.length_append, List.length_cons, List.length_nil] at enough
  obtain ⟨fuel, rfl⟩ : ∃ m, fuel = m + 2 := ⟨fuel - 2, by omega⟩
  have key : (r.next).nodeOr (fuel + 2) .blockValue mappingStops =
      .ok (.scalar .str ⟨f.name, false⟩, { r with tokens := .value :: (f.tokens ++ rest) }) := by
    rw [next_of_tokens tokens, (ReadAs.scalar .plain f.name).nodeOr (by simp; omega) rfl]
    simp [scalarTag, f.isText]
  have value : valueOr (fuel + 2) .blockValue mappingStops
      { r with tokens := .value :: (f.tokens ++ rest) } = .ok (f.node, { r with tokens := rest }) := by
    rw [valueOr, peek_of_tokens rfl]
    exact f.reads.nodeOr (by omega) rfl
  rw [blockEntries, peek_of_tokens tokens]
  simp [bind, Except.bind, key, value, Field.nodes]

/-- The entries of a mapping are read one after the other. -/
theorem blockEntries_entries {fs : List Field} {tag : Tag} {acc : List (Node × Node)}
    (enough : 2 * (fs.flatMap Field.entry).length < fuel)
    (tokens : r.tokens = fs.flatMap Field.entry ++ .blockEnd :: rest) :
    r.blockEntries fuel tag acc =
      .ok (.mapping tag (acc.reverse ++ fs.map Field.nodes), { r with tokens := rest }) := by
  induction fs generalizing r acc fuel with
  | nil =>
    obtain ⟨fuel, rfl⟩ : ∃ m, fuel = m + 1 := ⟨fuel - 1, by omega⟩
    rw [blockEntries, peek_of_tokens tokens, next_of_tokens tokens]
    simp [bind, Except.bind, pure, Except.pure]
  | cons f fs ih =>
    obtain ⟨fuel, rfl⟩ : ∃ m, fuel = m + 1 := ⟨fuel - 1, by omega⟩
    simp only [List.flatMap_cons, List.length_append, List.append_assoc] at enough tokens
    have own : 0 < f.entry.length := by simp [Field.entry]
    rw [blockEntries_entry f (by omega) tokens, ih (by omega) rfl]
    simp

/-- Fields are read as a mapping. -/
theorem ReadAs.mapping (fs : List Field) :
    ReadAs (Field.mapping fs) (.mapping .map (fs.map Field.nodes)) := by
  refine ⟨by simp [Field.mapping], by simp [Field.mapping, mappingStops],
    fun fuel place r rest enough inBlock tokens => ?_⟩
  simp only [Field.mapping, List.length_append, List.length_cons, List.length_nil,
    List.cons_append, List.append_assoc, List.nil_append] at enough tokens
  obtain ⟨fuel, rfl⟩ : ∃ m, fuel = m + 2 := ⟨fuel - 2, by omega⟩
  refine node_of_body (.inl rfl) (peek_of_tokens tokens) ?_
  have notFlow : (place == .flow) = false := beq_false_of_ne inBlock
  rw [body, notFlow, next_of_tokens tokens]
  exact blockEntries_entries (by omega) rfl

/-- A document that is a mapping of fields is read as that mapping. -/
theorem ofTokens_mapping (fs : List Field) :
    Node.ofTokens ⟨Field.mapping fs ++ [.streamEnd], none⟩ =
      .ok (some (.mapping .map (fs.map Field.nodes))) := by
  have peeks : (⟨Field.mapping fs ++ [.streamEnd], none, standardHandles, []⟩ : Reading).peek =
      .ok .blockMappingStart := peek_of_tokens rfl
  have reads := (ReadAs.mapping fs).node (8 * (Field.mapping fs ++ [Token.streamEnd]).length + 8)
    .block ⟨Field.mapping fs ++ [.streamEnd], none, standardHandles, []⟩ [.streamEnd]
    (by simp; omega) nofun rfl
  have ends : (⟨[.streamEnd], none, standardHandles, []⟩ : Reading).finish = .ok () := rfl
  rw [Node.ofTokens]
  simp only [peeks, bind, Except.bind, reads, ends]
  rfl

end Nodes

/-! ## Making values -/

namespace Node

theorem HasValue.value_eq {n : Node} {v : Value} (h : n.HasValue v) : n.value = .ok v := by
  rw [value, built, h _ (Nat.le_succ _)]

theorem contentOf_text (s : String) : contentOf .str ⟨s, false⟩ = .ok (.text s) := rfl

theorem contentOf_bool {s : Text.Spelling} {b : Bool} (h : boolContent s = .ok b) :
    contentOf .bool s = .ok (.bool b) := by
  delta contentOf
  simp only [h]

theorem contentOf_int {s : Text.Spelling} {n : Int} (h : intContent s = .ok n) :
    contentOf .int s = .ok (.int n) := by
  delta contentOf
  simp only [h]

/-- A scalar with a content has that value. -/
theorem HasValue.scalar {tag : Tag} {s : Text.Spelling} {v : Value} (h : contentOf tag s = .ok v) :
    (Node.scalar tag s).HasValue v := by
  intro fuel enough
  obtain ⟨fuel, rfl⟩ : ∃ m, fuel = m + 1 := ⟨fuel - 1, by rw [depth] at enough; omega⟩
  have single : emptyOf? tag = none := by
    cases tag <;> first | rfl | cases h
  rw [build, single]
  simp [h, Built.ofResult]

section Record

variable {fs : List Field}

/-- The fields of a mapping are nested less deep than the mapping. -/
theorem depth_le_of_mem {f : Field} (h : f ∈ fs) :
    f.node.depth ≤ depth.depthEntries (fs.map Field.nodes) := by
  induction fs with
  | nil => cases h
  | cons g fs ih =>
    simp only [List.map_cons, Field.nodes, depth.depthEntries]
    rcases List.mem_cons.1 h with rfl | h
    · omega
    · have := ih h
      omega

/-- Fields are no merge keys. -/
theorem flattened_fields : flattened (fs.map Field.nodes) = .ok (fs.map Field.nodes) := by
  have noMerge : merged (fs.map Field.nodes) = .ok [] := by
    induction fs with
    | nil => rfl
    | cons f fs ih => simp [Field.nodes, merged, isOf, bind, Except.bind, pure, Except.pure, ih]
  have same : own (fs.map Field.nodes) = fs.map Field.nodes := by
    clear noMerge
    induction fs with
    | nil => rfl
    | cons f fs ih => simp [Field.nodes, own, isOf, asKey, ih]
  simp [flattened, noMerge, same, bind, Except.bind, pure, Except.pure]

/-- A new name comes last. -/
theorem insertEntry_pair {done : List Field} {f : Field} (new : f.name ∉ done.map Field.name) :
    Value.insertEntry (done.map Field.pair) (.text f.name) f.value =
      (done ++ [f]).map Field.pair := by
  rw [List.map_append]
  refine Value.insertEntry_eq_append (List.forall_mem_map.2 fun g mem => ?_) f.value
  exact beq_false_of_ne fun same : g.name = f.name => new (same ▸ List.mem_map_of_mem mem)

/-- The entries of a mapping are made one after the other. -/
theorem builtEntries_fields {fuel : Nat} {done : List Field} (positive : 1 ≤ fuel)
    (deep : depth.depthEntries (fs.map Field.nodes) ≤ fuel)
    (distinct : ((done ++ fs).map Field.name).Nodup) :
    builtEntries (build fuel) (done.map Field.pair) (fs.map Field.nodes) =
      ⟨(done ++ fs).map Field.pair, none⟩ := by
  induction fs generalizing done with
  | nil => simp [builtEntries]
  | cons f fs ih =>
    have new : f.name ∉ done.map Field.name := by
      rw [List.map_append, List.map_cons] at distinct
      exact (List.nodup_middle.1 distinct).notMem ∘ List.mem_append_left _
    have split : done ++ f :: fs = (done ++ [f]) ++ fs := by simp
    rw [split] at distinct ⊢
    have key : build fuel (.scalar .str ⟨f.name, false⟩) = ⟨.text f.name, none⟩ :=
      HasValue.scalar rfl fuel positive
    have made : build fuel f.node = ⟨f.value, none⟩ :=
      f.means fuel (Nat.le_trans (depth_le_of_mem List.mem_cons_self) deep)
    have rest := ih (by simp only [List.map_cons, Field.nodes, depth.depthEntries] at deep; omega)
      distinct
    simp only [List.map_cons, Field.nodes, builtEntries, key, made, insertEntry_pair new, rest]
    rfl

/-- Fields make up a record. -/
theorem HasValue.mapping (distinct : (fs.map Field.name).Nodup) :
    (Node.mapping .map (fs.map Field.nodes)).HasValue (.mapping (fs.map Field.pair)) := by
  intro fuel enough
  rw [depth] at enough
  obtain ⟨fuel, rfl⟩ : ∃ m, fuel = m + 1 := ⟨fuel - 1, by omega⟩
  have made : builtMapping (build fuel) (fs.map Field.nodes) = ⟨fs.map Field.pair, none⟩ := by
    rw [builtMapping, flattened_fields]
    cases fs with
    | nil => rfl
    | cons f fs =>
      have deep : 1 ≤ depth.depthEntries ((f :: fs).map Field.nodes) := by
        simp only [List.map_cons, Field.nodes, depth.depthEntries, depth]
        omega
      have start : (([] ++ (f :: fs)).map Field.name).Nodup := distinct
      exact builtEntries_fields (by omega) (by omega) start
  rw [build, made]
  rfl

end Record

end Node

/-! ## Documents -/

namespace Field

/-- A field whose value is a scalar. -/
def scalar (name : String) (isText : Tag.resolve name = .str) (style : ScalarStyle)
    (content : String) (value : Value)
    (means : Node.contentOf (scalarTag {} style content) ⟨content, false⟩ = .ok value) : Field where
  name
  tokens := [.scalar style ⟨content, false⟩]
  node := .scalar (scalarTag {} style content) ⟨content, false⟩
  value
  isText
  reads := .scalar style content
  means := .scalar means

/-- A field whose value is the record of some fields. -/
def nested (name : String) (isText : Tag.resolve name = .str) (fs : List Field)
    (distinct : (fs.map Field.name).Nodup) : Field where
  name
  tokens := mapping fs
  node := .mapping .map (fs.map nodes)
  value := .mapping (fs.map pair)
  isText
  reads := .mapping fs
  means := .mapping distinct

/-- Where each of some things is a field, the fields of them all are told by the things. -/
theorem exists_fields {α : Type} {xs : List α} {tokens : α → List Token} {pair : α → Value × Value}
    {name : α → String}
    (each : ∀ x ∈ xs, ∃ f : Field, f.entry = tokens x ∧ f.pair = pair x ∧ f.name = name x) :
    ∃ fs : List Field, fs.flatMap entry = xs.flatMap tokens ∧ fs.map Field.pair = xs.map pair ∧
      fs.map Field.name = xs.map name := by
  induction xs with
  | nil => exact ⟨[], rfl, rfl, rfl⟩
  | cons x xs ih =>
    obtain ⟨first, others⟩ := List.forall_mem_cons.1 each
    obtain ⟨f, entry, pair, name⟩ := first
    obtain ⟨fs, entries, pairs, names⟩ := ih others
    exact ⟨f :: fs, by simp [entry, entries], by simp [pair, pairs], by simp [name, names]⟩

end Field

/-- A document whose tokens are those of some fields has the record of them as its value. -/
theorem read_of_fields {cs : List Char} {fs : List Field} (distinct : (fs.map Field.name).Nodup)
    (lexed : tokens ⟨cs, none⟩ = ⟨Field.mapping fs ++ [.streamEnd], none⟩) :
    read ⟨cs, none⟩ = .ok (.mapping (fs.map Field.pair)) := by
  rw [read, lexed, ofTokens_mapping]
  exact (Node.HasValue.mapping distinct).value_eq

end Pinhole.Yaml
