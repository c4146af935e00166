import Pinhole.Yaml.Built
import Pinhole.Yaml.Tag

/-!
# Nodes

A document is one node: a scalar, a sequence or a mapping, each with its tag. A node with an anchor
stands wherever an alias names it. Its value is made once and kept with it in a `named` node, so a
node that is named often costs no more than one that is named once.

A node can be named inside itself; there it is replaced by its kind and tag alone, after one turn,
so that nodes stay finite. Such a node is not closed as long as it is being read, and it has no value
of its own before.

Merge keys put the entries of other mappings in front of a mapping's own.
-/

namespace Pinhole.Yaml

/-- A node of a document. -/
inductive Node
  | scalar (tag : Tag) (content : Text.Spelling)
  | sequence (tag : Tag) (items : List Node)
  | mapping (tag : Tag) (entries : List (Node × Node))
  /-- The node of an anchor, seen from inside. -/
  | inner (anchor : String)
  /-- A node with its value and its depth. -/
  | named (built : Built Value) (depth : Nat) (node : Node)

namespace Node

/-- A node without its name. -/
def bare : Node → Node
  | .named _ _ n => bare n
  | n => n

/-- How deep nodes are nested in a node. -/
def depth : Node → Nat
  | .scalar .. | .inner _ => 1
  | .sequence _ items => depthItems items + 1
  | .mapping _ entries => depthEntries entries + 1
  | .named _ d _ => d
where
  /-- How deep the items of a sequence are nested. -/
  depthItems : List Node → Nat
    | [] => 0
    | n :: ns => max (depth n) (depthItems ns)
  /-- How deep the entries of a mapping are nested. -/
  depthEntries : List (Node × Node) → Nat
    | [] => 0
    | (k, v) :: es => max (max (depth k) (depth v)) (depthEntries es)

/-! ## Nodes named inside themselves -/

/-- Whether no anchor is named in a node whose own node is still being read. -/
def isClosed : Node → Bool
  | .scalar .. | .named .. => true
  | .inner _ => false
  | .sequence _ items => closedItems items
  | .mapping _ entries => closedEntries entries
where
  /-- Whether all items of a sequence are closed. -/
  closedItems : List Node → Bool
    | [] => true
    | n :: ns => isClosed n && closedItems ns
  /-- Whether all entries of a mapping are closed. -/
  closedEntries : List (Node × Node) → Bool
    | [] => true
    | (k, v) :: es => isClosed k && isClosed v && closedEntries es

mutual

/-- A node with an anchor's node put in where it is seen from inside. -/
def fill (anchor : String) (image : Node) : Node → Node
  | .sequence tag items => .sequence tag (fillItems anchor image items)
  | .mapping tag entries => .mapping tag (fillEntries anchor image entries)
  | .inner a => if a == anchor then image else .inner a
  | n => n

/-- The items of a sequence with an anchor's node put in. -/
def fillItems (anchor : String) (image : Node) : List Node → List Node
  | [] => []
  | n :: ns => fill anchor image n :: fillItems anchor image ns

/-- The entries of a mapping with an anchor's node put in. -/
def fillEntries (anchor : String) (image : Node) : List (Node × Node) → List (Node × Node)
  | [] => []
  | (k, v) :: es => (fill anchor image k, fill anchor image v) :: fillEntries anchor image es

end

mutual

/-- Nothing is put into a closed node. -/
theorem fill_of_isClosed (a : String) (image : Node) :
    ∀ n : Node, n.isClosed → fill a image n = n
  | .scalar .., _ | .named .., _ => by simp [fill]
  | .inner _, h => by simp [isClosed] at h
  | .sequence tag items, h => by
    simp [fill, fillItems_of_closed a image items (by simpa [isClosed] using h)]
  | .mapping tag entries, h => by
    simp [fill, fillEntries_of_closed a image entries (by simpa [isClosed] using h)]

/-- Nothing is put into closed items. -/
theorem fillItems_of_closed (a : String) (image : Node) :
    ∀ ns : List Node, isClosed.closedItems ns → fillItems a image ns = ns
  | [], _ => by simp [fillItems]
  | n :: ns, h => by
    simp only [isClosed.closedItems, Bool.and_eq_true] at h
    simp [fillItems, fill_of_isClosed a image n h.1, fillItems_of_closed a image ns h.2]

/-- Nothing is put into closed entries. -/
theorem fillEntries_of_closed (a : String) (image : Node) :
    ∀ es : List (Node × Node), isClosed.closedEntries es → fillEntries a image es = es
  | [], _ => by simp [fillEntries]
  | (k, v) :: es, h => by
    simp only [isClosed.closedEntries, Bool.and_eq_true] at h
    simp [fillEntries, fill_of_isClosed a image k h.1.1, fill_of_isClosed a image v h.1.2,
      fillEntries_of_closed a image es h.2]

end

/-- A node without what it holds. -/
def hollow : Node → Node
  | .sequence tag _ => .sequence tag []
  | .mapping tag _ => .mapping tag []
  | n => n

/-- The node of an anchor, in which the anchor itself may be named. -/
def knot (anchor : String) (n : Node) : Node :=
  fill anchor n.hollow (fill anchor n n)

/-! ## Merging -/

/-- Whether a node has the given tag. -/
def isOf (tag : Tag) : Node → Bool
  | .scalar t _ | .sequence t _ | .mapping t _ => t == tag
  | .inner _ => false
  | .named _ _ n => isOf tag n

/-- A key as it stands after merging: what has the tag of an equals sign is a text like any
other. -/
def asKey : Node → Node
  | .scalar .value s => .scalar .str s
  | .sequence .value items => .sequence .str items
  | .mapping .value entries => .mapping .str entries
  | .named b d n => if n.isOf .value then asKey n else .named b d n
  | n => n

/-- What is wrong with a merge key that names something other than mappings. -/
def mergeProblem : String := "expected a mapping or list of mappings for merging"

mutual

/-- The entries that merge keys put in front of a mapping's own. -/
def merged : List (Node × Node) → Except String (List (Node × Node))
  | [] => .ok []
  | (k, v) :: es => do
    let here ← if k.isOf .merge then source v else .ok []
    return here ++ (← merged es)

/-- The entries that one merge key stands for. Of several mappings the first takes precedence, so
its entries come last. -/
def source : Node → Except String (List (Node × Node))
  | .mapping _ es => do return (← merged es) ++ own es
  | .sequence _ items => sources items
  | .named _ _ n => source n
  | _ => .error mergeProblem

/-- The entries of several mappings, those of the last one first. -/
def sources : List Node → Except String (List (Node × Node))
  | [] => .ok []
  | n :: ns => do
    let here ← sourceOfOne n
    return (← sources ns) ++ here

/-- The entries of one of several mappings. -/
def sourceOfOne : Node → Except String (List (Node × Node))
  | .mapping _ es => do return (← merged es) ++ own es
  | .named _ _ n => sourceOfOne n
  | _ => .error mergeProblem

/-- A mapping's own entries. -/
def own : List (Node × Node) → List (Node × Node)
  | [] => []
  | (k, v) :: es => if k.isOf .merge then own es else (k.asKey, v) :: own es

end

/-- The entries of a mapping after merging. -/
def flattened (es : List (Node × Node)) : Except String (List (Node × Node)) := do
  return (← merged es) ++ own es

/-- The text of a node that has to be a scalar. A mapping with an equals sign among its keys stands
for the scalar under it. -/
def text? : Node → Option Text.Spelling
  | .scalar _ s => some s
  | .mapping _ es => textOfEntries es
  | .named _ _ n => text? n
  | _ => none
where
  /-- The text under an equals sign. -/
  textOfEntries : List (Node × Node) → Option Text.Spelling
    | [] => none
    | (k, v) :: es => if k.isOf .value then text? v else textOfEntries es

end Node

end Pinhole.Yaml
