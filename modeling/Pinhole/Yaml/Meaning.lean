import Pinhole.Yaml.Content
import Pinhole.Yaml.Node

/-!
# The values of nodes

The value of a node. Of repeated keys the last one wins. What a collection holds is made one level
further in than the collection, which decides what fault is reported of several.
-/

namespace Pinhole.Yaml.Node

/-- The values of scalars. -/
def contentOf (tag : Tag) (s : Text.Spelling) : Except Fault Value :=
  let scalar {α : Type} (x : Content α) (f : α → Value) : Except Fault Value :=
    match x with
    | .ok a => .ok (f a)
    | .error bad => .error (.scalar bad)
  match tag with
  | .null => .ok .null
  | .bool => scalar (boolContent s) .bool
  | .int => scalar (intContent s) .int
  | .float => scalar (floatContent s) .float
  | .timestamp => scalar (stampContent s) .foreign
  | .binary =>
    match Text.base64Bytes? s.text with
    | some bytes => .ok (.foreign (.bytes bytes))
    | none => .error (.malformed "failed to decode base64 data")
  | .str => .ok (if s.torn then .foreign (.torn s) else .text s.text)
  | _ => .error (.malformed "could not determine a constructor for the tag")

/-- The value of a collection that stands for a scalar. A date cannot be read off a collection. -/
def builtContent (tag : Tag) (s : Option Text.Spelling) : Built Value :=
  .ofResult
    (match s with
    | none => .error (.malformed "expected a scalar node")
    | some s => if tag = .timestamp then .error (.scalar .unwrittenMoment) else contentOf tag s)

/-- Whether a tag is that of a collection, and the empty value of its kind. -/
def emptyOf? : Tag → Option Value
  | .seq | .omap | .pairs => some (.list [])
  | .map => some (.mapping [])
  | .set => some (.foreign (.set true))
  | _ => none

/-- A collection whose node is of another kind; this is found when what it holds is made. -/
def mismatch (empty : Value) (problem : String) : Built Value :=
  (Built.faulty () (.malformed problem)).outer fun _ => empty

/-- The value of a mapping with one entry, by the values of its key and its value. -/
def builtPair (build : Node → Built Value) (n : Node) : Built Value :=
  match n.bare with
  | .mapping _ [(k, v)] =>
    let pair := Built.all [build k, build v]
    ⟨.list pair.value, pair.finding⟩
  | _ => .faulty (.list []) (.malformed "expected a mapping of length 1")

/-- The entries of a mapping after those made so far, by the values of the keys and values. -/
def builtEntries (build : Node → Built Value) (acc : List (Value × Value)) :
    List (Node × Node) → Built (List (Value × Value))
  | [] => ⟨acc, none⟩
  | (k, v) :: es =>
    let a := build k
    let unfit := if a.value.isKey then none else some (0, Fault.malformed "found unhashable key")
    let b := build v
    let c := builtEntries build (Value.insertEntry acc a.value b.value) es
    ⟨c.value, ((a.finding.first unfit).first b.finding).first c.finding⟩

/-- The entries of a mapping, after merging. -/
def builtMapping (build : Node → Built Value) (entries : List (Node × Node)) :
    Built (List (Value × Value)) :=
  match flattened entries with
  | .error problem => .faulty [] (.malformed problem)
  | .ok entries => builtEntries build [] entries

/-- The value of a node that is nested no deeper than `fuel`. -/
def build (fuel : Nat) (n : Node) : Built Value :=
  match fuel with
  | 0 => .faulty .null (.malformed "found a document that is nested too deeply")
  | fuel + 1 =>
    match n with
    | .named b _ _ => b
    | .inner _ => ⟨.mapping [], none⟩
    | .scalar tag s =>
      match emptyOf? tag with
      | some empty => mismatch empty "expected a collection, but found a scalar node"
      | none => .ofResult (contentOf tag s)
    | .sequence tag items =>
      match tag with
      | .seq => (Built.all (items.map (build fuel))).outer .list
      | .omap | .pairs => (Built.all (items.map (builtPair (build fuel)))).outer .list
      | tag =>
        match emptyOf? tag with
        | some empty => mismatch empty "expected a mapping node, but found a sequence node"
        | none => builtContent tag n.text?
    | .mapping tag entries =>
      match tag with
      | .map => (builtMapping (build fuel) entries).outer .mapping
      | .set => (builtMapping (build fuel) entries).outer fun es => .foreign (.set es.isEmpty)
      | tag =>
        match emptyOf? tag with
        | some empty => mismatch empty "expected a sequence node, but found a mapping node"
        | none => builtContent tag n.text?

/-- The value of a node. -/
def built (n : Node) : Built Value := build (n.depth + 1) n

/-- A node that keeps its value, if it has one of its own yet. -/
def share (n : Node) : Node := if n.isClosed then .named n.built n.depth n else n

/-- The value of a node, or its first fault. -/
def value (n : Node) : Except Fault Value :=
  match n.built.finding with
  | some (_, f) => .error f
  | none => .ok n.built.value

/-- Keeping the value of a node leaves it as it is. -/
theorem built_share (n : Node) : n.share.built = n.built := by
  unfold share
  split <;> rfl

end Pinhole.Yaml.Node
