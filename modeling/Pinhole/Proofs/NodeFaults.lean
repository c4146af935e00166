import Pinhole.Proofs.LexicalFaults
import Pinhole.Yaml.Document

/-!
# What is wrong with the nodes of a document

A node that is read off tokens may keep a value, and with it a fault that is found when the value is
asked for. `Node.Textual` says of all that a node keeps that it is no want of a text; filling in
anchors, merging and making values keep to it, and so do the readers, which call one another
(`Reading.readTextual`). So a document that does not break off for want of a text has a value, or
something else is wrong with it (`textual_read`).
-/

namespace Pinhole.Yaml

variable {α β : Type}

/-- What a result gives has a property, if it gives something. -/
def Gives {ε : Type} (P : α → Prop) (x : Except ε α) : Prop := ∀ a, x = .ok a → P a

section Gives

variable {ε : Type} {P : α → Prop} {Q : β → Prop}

theorem gives_ok {a : α} (h : P a) : Gives P (.ok a : Except ε α) := by
  rintro _ ⟨⟩
  exact h

theorem gives_error (e : ε) : Gives P (.error e) := nofun

theorem gives_bind {x : Except ε α} {f : α → Except ε β} (h : Gives P x)
    (rest : ∀ a, P a → Gives Q (f a)) : Gives Q (x >>= f) := by
  cases x with
  | ok a => exact rest a (h a rfl)
  | error e => exact gives_error e

end Gives

/-! ## Nodes -/

/-- A finding that is another than that bytes are no text. -/
def Finding.Textual (a : Finding) : Prop := ∀ level f, a = some (level, f) → f ≠ .undecodable

namespace Finding

variable {a b : Finding}

theorem textual_none : Finding.Textual none := nofun

theorem textual_malformed (level : Nat) (problem : String) :
    Finding.Textual (some (level, .malformed problem)) := by
  rintro _ _ h
  cases h
  exact nofun

/-- The first of two findings is one of the two. -/
theorem Textual.first (ha : a.Textual) (hb : b.Textual) : (a.first b).Textual := by
  unfold Finding.first
  split
  · split
    · exact hb
    · exact ha
  · exact ha
  · exact hb

theorem Textual.deeper (h : a.Textual) : a.deeper.Textual := by
  rintro level f hf
  obtain ⟨⟨m, g⟩, hg, e⟩ := Option.map_eq_some_iff.1 hf
  cases e
  exact h m _ hg

end Finding

namespace Built

theorem textual_all {bs : List (Built α)} (h : ∀ b ∈ bs, b.finding.Textual) :
    (all bs).finding.Textual := by
  induction bs with
  | nil => exact Finding.textual_none
  | cons b bs ih =>
    obtain ⟨first, rest⟩ := List.forall_mem_cons.1 h
    exact first.first (ih rest)

theorem textual_ofResult {x : Except Fault Value} (h : Textual x) :
    (ofResult x).finding.Textual := by
  cases x with
  | ok v => exact Finding.textual_none
  | error f =>
    rintro _ _ hf
    cases hf
    exact fun e => h (e ▸ rfl)

end Built

namespace Node

/-- A node that keeps no value without a text. -/
inductive Textual : Node → Prop
  | scalar (tag : Tag) (s : Text.Spelling) : Textual (.scalar tag s)
  | sequence {tag : Tag} {items : List Node} (hitems : ∀ n ∈ items, Textual n) :
    Textual (.sequence tag items)
  | mapping {tag : Tag} {entries : List (Node × Node)}
    (hkeys : ∀ e ∈ entries, Textual e.1) (hvalues : ∀ e ∈ entries, Textual e.2) :
    Textual (.mapping tag entries)
  | inner (anchor : String) : Textual (.inner anchor)
  | named {b : Built Value} {depth : Nat} {n : Node} (hfinding : b.finding.Textual)
    (hnode : Textual n) : Textual (.named b depth n)

variable {n image : Node} {es : List (Node × Node)}

/-- Entries whose keys and values are textual. -/
def TextualEntries (es : List (Node × Node)) : Prop := ∀ e ∈ es, e.1.Textual ∧ e.2.Textual

theorem textualEntries_mapping {tag : Tag} : (Node.mapping tag es).Textual ↔ TextualEntries es := by
  constructor
  · rintro (_ | _ | ⟨hkeys, hvalues⟩)
    exact fun e he => ⟨hkeys e he, hvalues e he⟩
  · intro h
    exact .mapping (fun e he => (h e he).1) fun e he => (h e he).2

theorem Textual.bare (h : n.Textual) : n.bare.Textual := by
  induction h with
  | named hfinding hnode ih => exact ih
  | scalar tag s => exact .scalar tag s
  | sequence hitems => exact .sequence hitems
  | mapping hkeys hvalues => exact .mapping hkeys hvalues
  | inner anchor => exact .inner anchor

theorem Textual.hollow (h : n.Textual) : n.hollow.Textual := by
  cases h with
  | sequence hitems => exact .sequence nofun
  | mapping hkeys hvalues => exact .mapping nofun nofun
  | scalar tag s => exact .scalar tag s
  | inner anchor => exact .inner anchor
  | named hfinding hnode => exact .named hfinding hnode

theorem fillItems_eq_map (anchor : String) (image : Node) (ns : List Node) :
    fillItems anchor image ns = ns.map (fill anchor image) := by
  induction ns with
  | nil => rfl
  | cons n ns ih => rw [fillItems, ih, List.map_cons]

theorem fillEntries_eq_map (anchor : String) (image : Node) (es : List (Node × Node)) :
    fillEntries anchor image es =
      es.map fun e => (fill anchor image e.1, fill anchor image e.2) := by
  induction es with
  | nil => rfl
  | cons e es ih => rw [fillEntries, ih, List.map_cons]

/-- Putting a textual node in the place of an inner mention of an anchor. -/
theorem Textual.fill {anchor : String} (himage : image.Textual) (h : n.Textual) :
    (fill anchor image n).Textual := by
  induction h with
  | scalar tag s => exact .scalar tag s
  | sequence hitems ih =>
    rw [Node.fill, fillItems_eq_map]
    refine .sequence fun m hm => ?_
    obtain ⟨n, hn, rfl⟩ := List.mem_map.1 hm
    exact ih n hn
  | mapping hkeys hvalues ihkeys ihvalues =>
    rw [Node.fill, fillEntries_eq_map]
    refine .mapping (fun d hd => ?_) fun d hd => ?_
    · obtain ⟨e, he, rfl⟩ := List.mem_map.1 hd
      exact ihkeys e he
    · obtain ⟨e, he, rfl⟩ := List.mem_map.1 hd
      exact ihvalues e he
  | inner a =>
    rw [Node.fill]
    split
    · exact himage
    · exact .inner a
  | named hfinding hnode => exact .named hfinding hnode

theorem Textual.knot (anchor : String) (h : n.Textual) : (n.knot anchor).Textual :=
  h.hollow.fill (h.fill h)

theorem Textual.asKey (h : n.Textual) : n.asKey.Textual := by
  induction h with
  | scalar tag s => cases tag <;> exact .scalar _ s
  | sequence hitems => cases ‹Tag› <;> exact .sequence hitems
  | mapping hkeys hvalues => cases ‹Tag› <;> exact .mapping hkeys hvalues
  | inner a => exact .inner a
  | named hfinding hnode ih =>
    rw [Node.asKey]
    split
    · exact ih
    · exact .named hfinding hnode

theorem TextualEntries.own (h : TextualEntries es) : TextualEntries (own es) := by
  induction es with
  | nil => exact nofun
  | cons e es ih =>
    obtain ⟨⟨hk, hv⟩, hes⟩ := List.forall_mem_cons.1 h
    rw [Node.own]
    split
    · exact ih hes
    · exact List.forall_mem_cons.2 ⟨⟨hk.asKey, hv⟩, ih hes⟩

theorem TextualEntries.append {ds : List (Node × Node)} (h : TextualEntries es)
    (h' : TextualEntries ds) : TextualEntries (es ++ ds) :=
  List.forall_mem_append.2 ⟨h, h'⟩

theorem TextualEntries.reverse (h : TextualEntries es) : TextualEntries es.reverse :=
  fun e he => h e (List.mem_reverse.1 he)

mutual

/-- Merging puts entries of textual nodes only in front of a mapping's own. -/
theorem gives_merged : ∀ es : List (Node × Node), TextualEntries es →
    Gives TextualEntries (merged es)
  | [], _ => gives_ok nofun
  | (k, v) :: es, h => by
    obtain ⟨⟨hk, hv⟩, hes⟩ := List.forall_mem_cons.1 h
    have rest : ∀ ds, TextualEntries ds → Gives TextualEntries (do return ds ++ (← merged es)) :=
      fun ds hds => gives_bind (gives_merged es hes) fun _ hrest => gives_ok (hds.append hrest)
    rw [merged]
    split
    · exact gives_bind (gives_source v hv) rest
    · exact rest [] nofun

/-- What is merged from one node, at the top or in a list of sources. -/
theorem gives_source : ∀ n : Node, n.Textual → Gives TextualEntries (source n)
  | .mapping tag es, h => by
    have hes := textualEntries_mapping.1 h
    rw [source]
    exact gives_bind (gives_merged es hes) fun _ hds => gives_ok (hds.append hes.own)
  | .sequence tag items, .sequence hitems => by
    rw [source]
    exact gives_sources items hitems
  | .named b d n, .named _ hnode => by
    rw [source]
    exact gives_source n hnode
  | .scalar tag s, _ => by
    rw [source]
    · exact gives_error _
    all_goals exact nofun
  | .inner a, _ => by
    rw [source]
    · exact gives_error _
    all_goals exact nofun

theorem gives_sources : ∀ ns : List Node, (∀ n ∈ ns, n.Textual) →
    Gives TextualEntries (sources ns)
  | [], _ => gives_ok nofun
  | n :: ns, h => by
    obtain ⟨hn, hns⟩ := List.forall_mem_cons.1 h
    rw [sources]
    refine gives_bind (gives_sourceOfOne n hn) fun ds hds => ?_
    exact gives_bind (gives_sources ns hns) fun _ hrest => gives_ok (hrest.append hds)

theorem gives_sourceOfOne : ∀ n : Node, n.Textual → Gives TextualEntries (sourceOfOne n)
  | .mapping tag es, h => by
    have hes := textualEntries_mapping.1 h
    rw [sourceOfOne]
    exact gives_bind (gives_merged es hes) fun _ hds => gives_ok (hds.append hes.own)
  | .named b d n, .named _ hnode => by
    rw [sourceOfOne]
    exact gives_sourceOfOne n hnode
  | .scalar tag s, _ | .inner a, _ | .sequence tag items, _ => by
    rw [sourceOfOne]
    · exact gives_error _
    all_goals exact nofun

end

theorem gives_flattened (h : TextualEntries es) : Gives TextualEntries (flattened es) :=
  gives_bind (gives_merged es h) fun _ hds => gives_ok (hds.append h.own)

/-! ## Values -/

theorem textual_contentOf (tag : Tag) (s : Text.Spelling) : Yaml.Textual (contentOf tag s) := by
  unfold contentOf
  dsimp only
  repeat' split
  all_goals simp

theorem textual_builtContent (tag : Tag) (s : Option Text.Spelling) :
    (builtContent tag s).finding.Textual := by
  refine Built.textual_ofResult ?_
  cases s with
  | none => simp
  | some s =>
    dsimp only
    split
    · simp
    · exact textual_contentOf tag s

theorem textual_mismatch (empty : Value) (problem : String) :
    (mismatch empty problem).finding.Textual :=
  (Finding.textual_malformed 0 problem).deeper

variable {build : Node → Built Value} (hbuild : ∀ n, n.Textual → (build n).finding.Textual)

include hbuild

/-- The only entry of a mapping in a list of pairs. -/
theorem textual_builtPair (h : n.Textual) : (builtPair build n).finding.Textual := by
  have hbare := h.bare
  unfold builtPair
  split
  · rename_i tag k v heq
    rw [heq, textualEntries_mapping] at hbare
    obtain ⟨hk, hv⟩ := hbare _ List.mem_cons_self
    refine Built.textual_all ?_
    simp only [List.mem_cons, List.not_mem_nil, or_false, forall_eq_or_imp, forall_eq]
    exact ⟨hbuild k hk, hbuild v hv⟩
  · exact Finding.textual_malformed 0 _

theorem textual_builtEntries (h : TextualEntries es) (acc : List (Value × Value)) :
    (builtEntries build acc es).finding.Textual := by
  induction es generalizing acc with
  | nil => exact Finding.textual_none
  | cons e es ih =>
    obtain ⟨⟨hk, hv⟩, hes⟩ := List.forall_mem_cons.1 h
    unfold builtEntries
    dsimp only
    -- A key that has a value can still be unfit for a key, which is no want of a text.
    have unfit : Finding.Textual (if (build e.1).value.isKey then none
        else some (0, Fault.malformed "found unhashable key")) := by
      split
      · exact Finding.textual_none
      · exact Finding.textual_malformed 0 _
    exact (((hbuild _ hk).first unfit).first (hbuild _ hv)).first (ih hes _)

theorem textual_builtMapping (h : TextualEntries es) :
    (builtMapping build es).finding.Textual := by
  have hflat := gives_flattened h
  unfold builtMapping
  split
  · exact Finding.textual_malformed 0 _
  · rename_i ds hds
    exact textual_builtEntries hbuild (hflat ds hds) []

omit hbuild in
/-- What is built from a textual node is textual: what a named node keeps by what the node says, and
everything else by what is built from its parts with less fuel. -/
theorem textual_build (fuel : Nat) (h : n.Textual) : (Node.build fuel n).finding.Textual := by
  induction fuel generalizing n with
  | zero => exact Finding.textual_malformed 0 _
  | succ fuel ih =>
    have hbuild : ∀ m : Node, m.Textual → (Node.build fuel m).finding.Textual := fun m hm => ih hm
    cases h with
    | named hfinding hnode => exact hfinding
    | inner anchor => exact Finding.textual_none
    | scalar tag s =>
      rw [Node.build]
      cases emptyOf? tag with
      | some empty => exact textual_mismatch _ _
      | none => exact Built.textual_ofResult (textual_contentOf tag s)
    | @sequence tag items hitems =>
      have each : ∀ b ∈ items.map (Node.build fuel), b.finding.Textual := by
        intro b hb
        obtain ⟨m, hm, rfl⟩ := List.mem_map.1 hb
        exact hbuild m (hitems m hm)
      have pairs : ∀ b ∈ items.map (builtPair (Node.build fuel)), b.finding.Textual := by
        intro b hb
        obtain ⟨m, hm, rfl⟩ := List.mem_map.1 hb
        exact textual_builtPair hbuild (hitems m hm)
      unfold Node.build
      dsimp only
      split
      · exact (Built.textual_all each).deeper
      · exact (Built.textual_all pairs).deeper
      · exact (Built.textual_all pairs).deeper
      · split
        · exact textual_mismatch _ _
        · exact textual_builtContent _ _
    | @mapping tag entries hkeys hvalues =>
      have hentries : TextualEntries entries := fun e he => ⟨hkeys e he, hvalues e he⟩
      unfold Node.build
      dsimp only
      split
      · exact (textual_builtMapping hbuild hentries).deeper
      · exact (textual_builtMapping hbuild hentries).deeper
      · split
        · exact textual_mismatch _ _
        · exact textual_builtContent _ _

omit hbuild in
theorem Textual.share (h : n.Textual) : n.share.Textual := by
  unfold Node.share
  split
  · exact .named (textual_build _ h) h
  · exact h

omit hbuild in
/-- A textual node has a value, or a fault that texts may have. -/
theorem Textual.value (h : n.Textual) : Yaml.Textual n.value := by
  have hbuilt : n.built.finding.Textual := textual_build _ h
  unfold Node.value
  cases hf : n.built.finding with
  | none => simp
  | some finding =>
    obtain ⟨level, f⟩ := finding
    simpa using hbuilt level f hf

end Node

/-! ## Readers -/

/-- A result that gives something with a property, or has a fault that texts may have. -/
structure Yields (P : α → Prop) (x : Except Fault α) : Prop where
  textual : Textual x
  gives : Gives P x

section Yields

variable {P : α → Prop} {Q : β → Prop} {x : Except Fault α}

theorem yields_ok {a : α} (h : P a) : Yields P (.ok a) := ⟨textual_ok a, gives_ok h⟩

theorem yields_pure {a : α} (h : P a) : Yields P (pure a) := yields_ok h

theorem yields_refuse (problem : String) : Yields P (Reading.refuse problem) :=
  ⟨nofun, gives_error _⟩

theorem yields_bind {f : α → Except Fault β} (h : Yields P x) (rest : ∀ a, P a → Yields Q (f a)) :
    Yields Q (x >>= f) := by
  cases x with
  | ok a => exact rest a (h.gives a rfl)
  | error e => exact ⟨fun he => h.textual (congrArg _ (Except.error.inj he)), gives_error e⟩

end Yields

namespace Reading

/-- A reading whose tokens do not break off for want of a text, and whose anchors name textual
nodes. -/
structure Textual (r : Reading) : Prop where
  fault : r.fault ≠ some .undecodable
  anchors : ∀ a n, (a, some n) ∈ r.anchors → n.Textual

/-- A textual node, and a textual reading of what is left. -/
def Read (p : Node × Reading) : Prop := p.1.Textual ∧ p.2.Textual

variable {r : Reading}

theorem textual_missing : missing.Textual := .scalar _ _

theorem Textual.next (h : r.Textual) : r.next.Textual := ⟨h.fault, h.anchors⟩

/-- Every item of a flow collection but the first one has a comma in front of it. -/
theorem Textual.afterComma (h : r.Textual) (first : Bool) :
    (if first then r else r.next).Textual := by
  split
  · exact h
  · exact h.next

theorem Textual.peek (h : r.Textual) : Yields (fun _ => True) r.peek := by
  refine ⟨?_, fun _ _ => trivial⟩
  unfold Reading.peek
  split
  · simp
  · rename_i f _ hf
    simpa using fun e => h.fault (by rw [hf, e])
  · simp

theorem yields_tagName (r : Reading) (handle : Option String) (suffix : String) :
    Yields (fun _ => True) (r.tagName handle suffix) := by
  unfold Reading.tagName
  split
  · exact yields_ok trivial
  · split
    · exact yields_ok trivial
    · exact yields_refuse _

theorem Textual.properties (h : r.Textual) : Yields (fun p => p.2.Textual) r.properties := by
  unfold Reading.properties
  refine yields_bind h.peek fun t _ => ?_
  split
  · refine yields_bind h.next.peek fun t _ => ?_
    split
    · exact yields_bind (yields_tagName _ _ _) fun _ _ => yields_pure h.next.next
    · exact yields_pure h.next
  · refine yields_bind h.next.peek fun t _ => ?_
    split
    · exact yields_bind (yields_tagName _ _ _) fun _ _ => yields_pure h.next.next
    · exact yields_bind (yields_tagName _ _ _) fun _ _ => yields_pure h.next
  · exact yields_pure h

theorem Textual.openAnchor (h : r.Textual) (p : Properties) :
    Yields Reading.Textual (r.openAnchor p) := by
  unfold Reading.openAnchor
  split
  · exact yields_ok h
  · split
    · exact yields_refuse _
    · refine yields_ok ⟨h.fault, fun a n hn => ?_⟩
      rcases List.mem_cons.1 hn with hn | hn
      · cases hn
      · exact h.anchors a n hn

theorem Textual.closeAnchor (h : r.Textual) (p : Properties) {n : Node} (hn : n.Textual) :
    Read (r.closeAnchor p n) := by
  unfold Reading.closeAnchor
  split
  · exact ⟨hn, h⟩
  · rename_i a ha
    -- The same node is given and kept under the anchor.
    have shared : (n.knot a).share.Textual := (hn.knot a).share
    refine ⟨shared, h.fault, fun b m hm => ?_⟩
    rcases List.mem_cons.1 hm with hm | hm
    · cases hm
      exact shared
    · exact h.anchors b m hm

theorem Textual.aliased (h : r.Textual) (a : String) : Yields Node.Textual (r.aliased a) := by
  unfold Reading.aliased
  split
  · rename_i n hn
    obtain ⟨before, after, hanchors, -⟩ := List.lookup_eq_some_iff.1 hn
    exact yields_ok (h.anchors a n (hanchors ▸ List.mem_append_right before List.mem_cons_self))
  · exact yields_ok (.inner a)
  · exact yields_refuse _

theorem Textual.bare (h : r.Textual) (p : Properties) : Yields Read (bare p r) := by
  unfold Reading.bare
  split
  · exact yields_refuse _
  · exact yields_ok ⟨.scalar _ _, h⟩

/-- All readers with some fuel read textual nodes. -/
structure ReadTextual (fuel : Nat) : Prop where
  node : ∀ place {r : Reading}, r.Textual → Yields Read (r.node fuel place)
  body : ∀ place p t {r : Reading}, r.Textual → Yields Read (body fuel place p t r)
  nodeOr : ∀ place stops {r : Reading}, r.Textual → Yields Read (nodeOr fuel place stops r)
  blockItems : ∀ tag {acc} {r : Reading}, (∀ n ∈ acc, n.Textual) → r.Textual →
    Yields Read (blockItems fuel tag acc r)
  looseItems : ∀ tag {acc} {r : Reading}, (∀ n ∈ acc, n.Textual) → r.Textual →
    Yields Read (looseItems fuel tag acc r)
  blockEntries : ∀ tag {acc} {r : Reading}, Node.TextualEntries acc → r.Textual →
    Yields Read (blockEntries fuel tag acc r)
  valueOr : ∀ place stops {r : Reading}, r.Textual → Yields Read (valueOr fuel place stops r)
  flowItems : ∀ tag first {acc} {r : Reading}, (∀ n ∈ acc, n.Textual) → r.Textual →
    Yields Read (flowItems fuel tag first acc r)
  flowEntries : ∀ tag first {acc} {r : Reading}, Node.TextualEntries acc → r.Textual →
    Yields Read (flowEntries fuel tag first acc r)

/-- A reader that has run out of fuel refuses. -/
theorem readTextual_zero : ReadTextual 0 := by
  constructor <;> intros <;> exact yields_refuse _

/-- One more step of each reader: it looks at a token, calls others with less fuel, and puts
together what they give. -/
theorem readTextual_succ {fuel : Nat} (ih : ReadTextual fuel) : ReadTextual (fuel + 1) where
  node place r hr := by
    unfold Reading.node
    refine yields_bind hr.peek fun t _ => ?_
    split
    · exact yields_bind (hr.aliased _) fun n hn => yields_pure ⟨hn, hr.next⟩
    · refine yields_bind hr.properties fun ⟨p, r₁⟩ h₁ => ?_
      refine yields_bind h₁.peek fun t _ => ?_
      refine yields_bind (h₁.openAnchor p) fun r₂ h₂ => ?_
      refine yields_bind (ih.body place p t h₂) fun ⟨n, r₃⟩ ⟨hn, h₃⟩ => ?_
      exact yields_pure (h₃.closeAnchor p hn)
  body place p t r hr := by
    unfold Reading.body
    split
    · split
      · exact ih.looseItems _ nofun hr
      · exact hr.bare p
    · exact yields_ok ⟨.scalar _ _, hr.next⟩
    · exact ih.flowItems _ _ nofun hr.next
    · exact ih.flowEntries _ _ nofun hr.next
    · split
      · exact hr.bare p
      · exact ih.blockItems _ nofun hr.next
    · split
      · exact hr.bare p
      · exact ih.blockEntries _ nofun hr.next
    · exact hr.bare p
  nodeOr place stops r hr := by
    unfold Reading.nodeOr
    have sees : Yields (fun _ => True) (r.sees stops) :=
      ⟨textual_map.2 hr.peek.textual, fun _ _ => trivial⟩
    refine yields_bind sees fun b _ => ?_
    split
    · exact yields_pure ⟨textual_missing, hr⟩
    · exact ih.node place hr
  blockItems tag acc r hacc hr := by
    unfold Reading.blockItems
    refine yields_bind hr.peek fun t _ => ?_
    split
    · refine yields_bind (ih.nodeOr _ _ hr.next) fun ⟨n, r₁⟩ ⟨hn, h₁⟩ => ?_
      exact ih.blockItems tag (List.forall_mem_cons.2 ⟨hn, hacc⟩) h₁
    · exact yields_pure ⟨.sequence (by simpa using hacc), hr.next⟩
    · exact yields_refuse _
  looseItems tag acc r hacc hr := by
    unfold Reading.looseItems
    refine yields_bind hr.peek fun t _ => ?_
    split
    · refine yields_bind (ih.nodeOr _ _ hr.next) fun ⟨n, r₁⟩ ⟨hn, h₁⟩ => ?_
      exact ih.looseItems tag (List.forall_mem_cons.2 ⟨hn, hacc⟩) h₁
    · exact yields_pure ⟨.sequence (by simpa using hacc), hr⟩
  blockEntries tag acc r hacc hr := by
    unfold Reading.blockEntries
    refine yields_bind hr.peek fun t _ => ?_
    split
    · refine yields_bind (ih.nodeOr _ _ hr.next) fun ⟨k, r₁⟩ ⟨hk, h₁⟩ => ?_
      refine yields_bind (ih.valueOr _ _ h₁) fun ⟨v, r₂⟩ ⟨hv, h₂⟩ => ?_
      exact ih.blockEntries tag (List.forall_mem_cons.2 ⟨⟨hk, hv⟩, hacc⟩) h₂
    · exact yields_pure ⟨Node.textualEntries_mapping.2 hacc.reverse, hr.next⟩
    · exact yields_refuse _
  valueOr place stops r hr := by
    unfold Reading.valueOr
    refine yields_bind hr.peek fun t _ => ?_
    split
    · exact ih.nodeOr place stops hr.next
    · exact yields_pure ⟨textual_missing, hr⟩
  flowItems tag first acc r hacc hr := by
    unfold Reading.flowItems
    refine yields_bind hr.peek fun t _ => ?_
    split
    · exact yields_pure ⟨.sequence (by simpa using hacc), hr.next⟩
    split
    · exact yields_refuse _
    have hnext := hr.afterComma first
    refine yields_bind hnext.peek fun t _ => ?_
    split
    · refine yields_bind (ih.nodeOr _ _ hnext.next) fun ⟨k, r₁⟩ ⟨hk, h₁⟩ => ?_
      refine yields_bind (ih.valueOr _ _ h₁) fun ⟨v, r₂⟩ ⟨hv, h₂⟩ => ?_
      have pair : Node.TextualEntries [(k, v)] := List.forall_mem_singleton.2 ⟨hk, hv⟩
      exact ih.flowItems tag false
        (List.forall_mem_cons.2 ⟨Node.textualEntries_mapping.2 pair, hacc⟩) h₂
    · exact yields_pure ⟨.sequence (by simpa using hacc), hnext.next⟩
    · refine yields_bind (ih.node _ hnext) fun ⟨n, r₁⟩ ⟨hn, h₁⟩ => ?_
      exact ih.flowItems tag false (List.forall_mem_cons.2 ⟨hn, hacc⟩) h₁
  flowEntries tag first acc r hacc hr := by
    unfold Reading.flowEntries
    refine yields_bind hr.peek fun t _ => ?_
    split
    · exact yields_pure ⟨Node.textualEntries_mapping.2 hacc.reverse, hr.next⟩
    split
    · exact yields_refuse _
    have hnext := hr.afterComma first
    refine yields_bind hnext.peek fun t _ => ?_
    split
    · refine yields_bind (ih.nodeOr _ _ hnext.next) fun ⟨k, r₁⟩ ⟨hk, h₁⟩ => ?_
      refine yields_bind (ih.valueOr _ _ h₁) fun ⟨v, r₂⟩ ⟨hv, h₂⟩ => ?_
      exact ih.flowEntries tag false (List.forall_mem_cons.2 ⟨⟨hk, hv⟩, hacc⟩) h₂
    · exact yields_pure ⟨Node.textualEntries_mapping.2 hacc.reverse, hnext.next⟩
    · refine yields_bind (ih.node _ hnext) fun ⟨k, r₁⟩ ⟨hk, h₁⟩ => ?_
      exact ih.flowEntries tag false (List.forall_mem_cons.2 ⟨⟨hk, textual_missing⟩, hacc⟩) h₁

/-- Whatever the fuel, the readers keep to textual nodes. -/
theorem readTextual (fuel : Nat) : ReadTextual fuel := by
  induction fuel with
  | zero => exact readTextual_zero
  | succ fuel ih => exact readTextual_succ ih

/-! ## Documents -/

theorem textual_directives (versioned : Bool) (handles : List (String × String))
    (ts : List Token) : Yaml.Textual (directives versioned handles ts) := by
  induction ts generalizing versioned handles with
  | nil => simp [directives]
  | cons t ts ih =>
    unfold directives
    split
    · rename_i heq
      cases heq
      simp [refuse, ih]
    · rename_i heq
      cases heq
      simp [refuse, ih]
    · rename_i heq
      cases heq
      exact ih _ _
    · simp

theorem Textual.opened (h : r.Textual) : Yields Reading.Textual r.opened := by
  unfold Reading.opened
  refine yields_bind (P := fun _ => True) ⟨textual_directives _ _ _, fun _ _ => trivial⟩
    fun ⟨handles, tokens⟩ _ => ?_
  have h' : ({ r with tokens, handles := handles ++ standardHandles } : Reading).Textual :=
    ⟨h.fault, h.anchors⟩
  refine yields_bind h'.peek fun t _ => ?_
  split
  · exact yields_pure h'.next
  · exact yields_refuse _

theorem Textual.markedDocument (h : r.Textual) (fuel : Nat) :
    Yields Read (r.markedDocument fuel) := by
  unfold Reading.markedDocument
  refine yields_bind h.opened fun r₁ h₁ => ?_
  refine yields_bind h₁.peek fun t _ => ?_
  split
  · exact yields_pure ⟨textual_missing, h₁⟩
  · exact yields_pure ⟨textual_missing, h₁⟩
  · exact yields_pure ⟨textual_missing, h₁⟩
  · exact yields_pure ⟨textual_missing, h₁⟩
  · exact (readTextual fuel).node _ h₁

theorem Textual.finish (h : r.Textual) : Yields (fun _ => True) r.finish := by
  unfold Reading.finish
  have h' : ({ r with tokens := r.tokens.dropWhile (· == Token.documentEnd) } : Reading).Textual :=
    ⟨h.fault, h.anchors⟩
  refine yields_bind h'.peek fun t _ => ?_
  split
  · exact yields_pure trivial
  · exact yields_bind h'.opened fun _ _ => yields_refuse _

end Reading

/-- The root of a document is textual, if there is one. -/
theorem Node.yields_ofTokens {s : TokenStream} (other : s.fault ≠ some .undecodable) :
    Yields (fun o => ∀ n, o = some n → n.Textual) (Node.ofTokens s) := by
  unfold Node.ofTokens
  have start : ({ tokens := s.tokens, fault := s.fault, handles := Reading.standardHandles } :
      Reading).Textual := ⟨other, nofun⟩
  refine yields_bind start.peek fun t _ => ?_
  have rest : ∀ p, Reading.Read p → Yields (fun o => ∀ n, o = some n → n.Textual)
      (do p.2.finish; return some p.1) := by
    rintro ⟨n, r⟩ ⟨hn, hr⟩
    refine yields_bind hr.finish fun _ _ => yields_pure ?_
    rintro m ⟨⟩
    exact hn
  split
  · exact yields_pure nofun
  · split
    · exact yields_bind (start.markedDocument _) rest
    · exact yields_bind (start.markedDocument _) rest
    · exact yields_bind ((Reading.readTextual _).node _ start) rest

/-- A document whose characters do not break off for want of a text has a value, or it has another
fault. -/
theorem textual_read {s : Source} (other : s.fault ≠ some .undecodable) : Textual (read s) := by
  unfold read
  have hnode := Node.yields_ofTokens (fault_tokens other)
  refine textual_bind.2 ⟨hnode.textual, fun o ho => ?_⟩
  cases o with
  | none => exact textual_pure _
  | some n => exact (hnode.gives _ ho n rfl).value

end Pinhole.Yaml
