import Pinhole.Yaml.Meaning
import Pinhole.Yaml.Token

/-!
# From tokens to nodes

`Node.ofTokens` reads a whole stream, which holds one document at most. Aliases are replaced by the
nodes that they name. Each reader answers with a node and the tokens after it; `fuel` bounds the
recursion, and a multiple of the number of tokens is always enough. A reader looks at a token only
when it needs it, so what is wrong where the tokens break off is found after everything that is wrong
in front of that place.
-/

namespace Pinhole.Yaml

/-- What is known while nodes are read. -/
structure Reading where
  tokens : List Token
  /-- What is wrong where the tokens break off, if they do. -/
  fault : Option Fault
  /-- The handles of tags and what they stand for. -/
  handles : List (String × String)
  /-- The nodes of the anchors; none while an anchor's node is being read. -/
  anchors : List (String × Option Node) := []

namespace Reading

/-- The handles that need no directive. -/
def standardHandles : List (String × String) := [("!", "!"), ("!!", Tag.coreUri)]

/-- The next token, or what is wrong in its place. -/
def peek (r : Reading) : Except Fault Token :=
  match r.tokens, r.fault with
  | t :: _, _ => .ok t
  | [], some f => .error f
  | [], none => .ok .streamEnd

/-- What is left after the next token. -/
def next (r : Reading) : Reading := { r with tokens := r.tokens.drop 1 }

/-- Whether the next token is one of some. -/
def sees (r : Reading) (ts : List Token) : Except Fault Bool := r.peek.map ts.contains

/-- A document that breaks a rule. -/
def refuse {α : Type} (problem : String) : Except Fault α := .error (.malformed problem)

/-- The empty scalar, which stands where a node is missing. -/
def missing : Node := .scalar .null ⟨"", false⟩

/-- The properties of a node: its anchor and the name of its tag. -/
structure Properties where
  anchor : Option String := none
  tag : Option String := none

/-- The name of a tag by its handle and suffix. -/
def tagName (r : Reading) (handle : Option String) (suffix : String) : Except Fault String :=
  match handle with
  | none => .ok suffix
  | some h =>
    match r.handles.lookup h with
    | some uri => .ok (uri ++ suffix)
    | none => refuse "found undefined tag handle"

/-- The properties in front of a node, an anchor and a tag in either order. -/
def properties (r : Reading) : Except Fault (Properties × Reading) := do
  match ← r.peek with
  | .anchor a =>
    let r := r.next
    match ← r.peek with
    | .tag handle suffix => return (⟨some a, some (← r.tagName handle suffix)⟩, r.next)
    | _ => return (⟨some a, none⟩, r)
  | .tag handle suffix =>
    let r := r.next
    match ← r.peek with
    | .anchor a => return (⟨some a, some (← r.tagName handle suffix)⟩, r.next)
    | _ => return (⟨none, some (← r.tagName handle suffix)⟩, r)
  | _ => return ({}, r)

/-- The tag of a collection. -/
def collectionTag (p : Properties) (standard : Tag) : Tag :=
  match p.tag with
  | none | some "!" => standard
  | some name => .ofName name

/-- The tag of a scalar. Without a tag of its own a plain scalar is resolved by its spelling and a
quoted one is a text; the tag of a single exclamation mark resolves any scalar. -/
def scalarTag (p : Properties) (style : ScalarStyle) (content : String) : Tag :=
  match p.tag with
  | none => if style == .plain then .resolve content else .str
  | some "!" => .resolve content
  | some name => .ofName name

/-- Checks that an anchor is new and remembers that its node is being read. -/
def openAnchor (r : Reading) (p : Properties) : Except Fault Reading :=
  match p.anchor with
  | none => .ok r
  | some a =>
    if (r.anchors.lookup a).isSome then refuse "found duplicate anchor"
    else .ok { r with anchors := (a, none) :: r.anchors }

/-- Remembers the node of an anchor, with its value. -/
def closeAnchor (r : Reading) (p : Properties) (n : Node) : Node × Reading :=
  match p.anchor with
  | none => (n, r)
  | some a =>
    let n := (n.knot a).share
    (n, { r with anchors := (a, some n) :: r.anchors })

/-- The node that an alias names. -/
def aliased (r : Reading) (a : String) : Except Fault Node :=
  match r.anchors.lookup a with
  | some (some n) => .ok n
  | some none => .ok (.inner a)
  | none => refuse "found undefined alias"

/-- Where a node stands: block collections are nodes outside of brackets only, and a sequence
without indentation only inside a block mapping. -/
inductive Place
  | block
  | blockValue
  | flow
  deriving DecidableEq

/-- Tokens that end a node of a block mapping. -/
def mappingStops : List Token := [.key, .value, .blockEnd]

/-- Tokens that end an item of a sequence. -/
def itemStops : List Token := [.blockEntry, .blockEnd]

/-- Tokens that end an item of a sequence without indentation. -/
def looseItemStops : List Token := [.blockEntry, .key, .value, .blockEnd]

mutual

/-- The node at the front of the tokens. -/
def node (fuel : Nat) (place : Place) (r : Reading) : Except Fault (Node × Reading) :=
  match fuel with
  | 0 => refuse "found a document that is nested too deeply"
  | fuel + 1 => do
    match ← r.peek with
    | .alias a => return (← r.aliased a, r.next)
    | _ =>
      let (p, r) ← r.properties
      let t ← r.peek
      let r ← r.openAnchor p
      let (n, r) ← body fuel place p t r
      return r.closeAnchor p n

/-- The node after its properties, which begins with the given token. -/
def body (fuel : Nat) (place : Place) (p : Properties) (t : Token) (r : Reading) :
    Except Fault (Node × Reading) :=
  match fuel with
  | 0 => refuse "found a document that is nested too deeply"
  | fuel + 1 =>
    match t with
    | .blockEntry =>
      if place == .blockValue then looseItems fuel (collectionTag p .seq) [] r else bare p r
    | .scalar style content => .ok (.scalar (scalarTag p style content.text) content, r.next)
    | .flowSequenceStart => flowItems fuel (collectionTag p .seq) true [] r.next
    | .flowMappingStart => flowEntries fuel (collectionTag p .map) true [] r.next
    | .blockSequenceStart =>
      if place == .flow then bare p r else blockItems fuel (collectionTag p .seq) [] r.next
    | .blockMappingStart =>
      if place == .flow then bare p r else blockEntries fuel (collectionTag p .map) [] r.next
    | _ => bare p r

/-- A node that is nothing but its properties. -/
def bare (p : Properties) (r : Reading) : Except Fault (Node × Reading) :=
  if p.anchor.isNone && p.tag.isNone then refuse "expected the node content"
  else .ok (.scalar (scalarTag p .plain "") ⟨"", false⟩, r)

/-- A node, or the missing one where a token of the list ends it at once. -/
def nodeOr (fuel : Nat) (place : Place) (stops : List Token) (r : Reading) :
    Except Fault (Node × Reading) :=
  match fuel with
  | 0 => refuse "found a document that is nested too deeply"
  | fuel + 1 => do if ← r.sees stops then return (missing, r) else node fuel place r

/-- The items of an indented sequence, with those read so far in reverse. -/
def blockItems (fuel : Nat) (tag : Tag) (acc : List Node) (r : Reading) :
    Except Fault (Node × Reading) :=
  match fuel with
  | 0 => refuse "found a document that is nested too deeply"
  | fuel + 1 => do
    match ← r.peek with
    | .blockEntry =>
      let (n, r) ← nodeOr fuel .block itemStops r.next
      blockItems fuel tag (n :: acc) r
    | .blockEnd => return (.sequence tag acc.reverse, r.next)
    | _ => refuse "expected <block end>"

/-- The items of a sequence without indentation, with those read so far in reverse. -/
def looseItems (fuel : Nat) (tag : Tag) (acc : List Node) (r : Reading) :
    Except Fault (Node × Reading) :=
  match fuel with
  | 0 => refuse "found a document that is nested too deeply"
  | fuel + 1 => do
    match ← r.peek with
    | .blockEntry =>
      let (n, r) ← nodeOr fuel .block looseItemStops r.next
      looseItems fuel tag (n :: acc) r
    | _ => return (.sequence tag acc.reverse, r)

/-- The entries of a block mapping, with those read so far in reverse. -/
def blockEntries (fuel : Nat) (tag : Tag) (acc : List (Node × Node)) (r : Reading) :
    Except Fault (Node × Reading) :=
  match fuel with
  | 0 => refuse "found a document that is nested too deeply"
  | fuel + 1 => do
    match ← r.peek with
    | .key =>
      let (k, r) ← nodeOr fuel .blockValue mappingStops r.next
      let (v, r) ← valueOr fuel .blockValue mappingStops r
      blockEntries fuel tag ((k, v) :: acc) r
    | .blockEnd => return (.mapping tag acc.reverse, r.next)
    | _ => refuse "expected <block end>"

/-- The value of an entry, missing when no colon announces it. -/
def valueOr (fuel : Nat) (place : Place) (stops : List Token) (r : Reading) :
    Except Fault (Node × Reading) :=
  match fuel with
  | 0 => refuse "found a document that is nested too deeply"
  | fuel + 1 => do
    if (← r.peek) == .value then nodeOr fuel place stops r.next else return (missing, r)

/-- The items of a sequence between brackets, with those read so far in reverse. A pair of a key and
a value is a mapping of its own. -/
def flowItems (fuel : Nat) (tag : Tag) (first : Bool) (acc : List Node) (r : Reading) :
    Except Fault (Node × Reading) :=
  match fuel with
  | 0 => refuse "found a document that is nested too deeply"
  | fuel + 1 => do
    let t ← r.peek
    if t == .flowSequenceEnd then return (.sequence tag acc.reverse, r.next)
    else if !first && t != .flowEntry then refuse "expected ',' or ']'"
    else
      let r := if first then r else r.next
      match ← r.peek with
      | .key =>
        let stops := [.flowEntry, .flowSequenceEnd]
        let (k, r) ← nodeOr fuel .flow (.value :: stops) r.next
        let (v, r) ← valueOr fuel .flow stops r
        flowItems fuel tag false (.mapping .map [(k, v)] :: acc) r
      | .flowSequenceEnd => return (.sequence tag acc.reverse, r.next)
      | _ =>
        let (n, r) ← node fuel .flow r
        flowItems fuel tag false (n :: acc) r

/-- The entries of a mapping between brackets, with those read so far in reverse. A node without a
colon is a key whose value is missing. -/
def flowEntries (fuel : Nat) (tag : Tag) (first : Bool) (acc : List (Node × Node)) (r : Reading) :
    Except Fault (Node × Reading) :=
  match fuel with
  | 0 => refuse "found a document that is nested too deeply"
  | fuel + 1 => do
    let t ← r.peek
    if t == .flowMappingEnd then return (.mapping tag acc.reverse, r.next)
    else if !first && t != .flowEntry then refuse "expected ',' or a closing brace"
    else
      let r := if first then r else r.next
      match ← r.peek with
      | .key =>
        let stops := [.flowEntry, .flowMappingEnd]
        let (k, r) ← nodeOr fuel .flow (.value :: stops) r.next
        let (v, r) ← valueOr fuel .flow stops r
        flowEntries fuel tag false ((k, v) :: acc) r
      | .flowMappingEnd => return (.mapping tag acc.reverse, r.next)
      | _ =>
        let (k, r) ← node fuel .flow r
        flowEntries fuel tag false ((k, missing) :: acc) r

end

/-- The handles that the directives in front of a document define, and what follows them. At most
one version may be given, of the first edition, and no handle may be defined twice. -/
def directives (versioned : Bool) (handles : List (String × String)) :
    List Token → Except Fault (List (String × String) × List Token)
  | .directive (.version major _) :: ts =>
    if versioned then refuse "found duplicate YAML directive"
    else if major != 1 then refuse "found incompatible YAML document (version 1.* is required)"
    else directives true handles ts
  | .directive (.tag handle uri) :: ts =>
    if (handles.lookup handle).isSome then refuse "duplicate tag handle"
    else directives versioned ((handle, uri) :: handles) ts
  | .directive .other :: ts => directives versioned handles ts
  | ts => .ok (handles, ts)

/-- What is left after the directives in front of a document and the mark of its start. -/
def opened (r : Reading) : Except Fault Reading := do
  let (handles, tokens) ← directives false [] r.tokens
  let r := { r with tokens, handles := handles ++ standardHandles }
  match ← r.peek with
  | .documentStart => return r.next
  | _ => refuse "expected '<document start>'"

/-- The document that starts with its own mark. -/
def markedDocument (fuel : Nat) (r : Reading) : Except Fault (Node × Reading) := do
  let r ← r.opened
  match ← r.peek with
  | .directive _ | .documentStart | .documentEnd | .streamEnd => return (missing, r)
  | _ => node fuel .block r

/-- Checks that no document follows the one that was read. -/
def finish (r : Reading) : Except Fault Unit := do
  let r := { r with tokens := r.tokens.dropWhile (· == Token.documentEnd) }
  if (← r.peek) == .streamEnd then return ()
  else
    let _ ← r.opened
    refuse "expected a single document in the stream"

end Reading

/-- The node of the one document of a stream; none for a stream without documents. -/
def Node.ofTokens (s : TokenStream) : Except Fault (Option Node) := do
  let fuel := 8 * s.tokens.length + 8
  let r : Reading :=
    { tokens := s.tokens, fault := s.fault, handles := Reading.standardHandles }
  match ← r.peek with
  | .streamEnd => return none
  | t =>
    let (n, r) ←
      match t with
      | .directive _ | .documentStart => r.markedDocument fuel
      | _ => r.node fuel .block
    r.finish
    return some n

end Pinhole.Yaml
