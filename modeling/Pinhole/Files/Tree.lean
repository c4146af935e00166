import Pinhole.Files.Fault
import Pinhole.Files.Path

/-!
# File trees

The files of a machine: at each location below the root a directory or a file with its bytes. A
location is the list of names that lead to it from the root, and has no double dots; following a
path of names turns it into a location, and double dots lead to the directory above wherever the
walk has come.

Operations answer as the system would, and give a fault with the path that they were given. Names
and paths must not be too long: a name is measured where the walk comes to it, a path at once.

Left out are the owners and the modes of files, but for files that must not be read; directories
that must not be searched or written to; links of every kind; and a device that is full.
-/

namespace Pinhole.Files

/-- The names that lead from the root to a place. -/
abbrev Location := List String

/-- What is found at a location. -/
inductive Entry
  | directory
  | file (content : ByteArray)

instance : DecidableEq Entry
  | .directory, .directory => .isTrue rfl
  | .directory, .file _ | .file _, .directory => .isFalse nofun
  | .file a, .file b =>
    match ByteArray.instDecidableEq a b with
    | .isTrue h => .isTrue (h ▸ rfl)
    | .isFalse h => .isFalse fun e => h (Entry.file.inj e)

/-- Whether an entry is a directory. -/
def Entry.isDirectory : Entry → Bool
  | .directory => true
  | .file _ => false

/-- The files of a machine. The working directory and those above it are there from the start. -/
structure Tree where
  /-- The working directory. -/
  here : Location := []
  entries : List (Location × Entry) := []
  /-- The files that must not be read. -/
  locked : List Location := []

namespace Tree

/-- What is found at a location. -/
def lookup? (t : Tree) (l : Location) : Option Entry :=
  if l.isPrefixOf t.here then some .directory else t.entries.lookup l

/-- Whether a directory is found at a location. -/
def isDirectoryAt (t : Tree) (l : Location) : Bool := t.lookup? l == some .directory

/-- The entries with another one at a location. -/
def replaced (entries : List (Location × Entry)) (l : Location) (e : Entry) :
    List (Location × Entry) :=
  match entries with
  | [] => [(l, e)]
  | (k, d) :: rest => if k = l then (k, e) :: rest else (k, d) :: replaced rest l e

/-- Puts an entry at a location. -/
def put (t : Tree) (l : Location) (e : Entry) : Tree := { t with entries := replaced t.entries l e }

/-- The entries below a location. -/
def below (t : Tree) (l : Location) : List (Location × Entry) :=
  t.entries.filter fun (k, _) => l.isPrefixOf k && k != l

/-! ## Following paths -/

/-- One step of a walk, from a directory to the place that a name leads to. -/
def stepTo (l : Location) (name : String) : Location :=
  if name == ".." then l.dropLast else l ++ [name]

/-- The greatest number of bytes of a name. -/
def maxNameSize : Nat := 255

/-- The greatest number of bytes of a path. -/
def maxPathSize : Nat := 4095

/-- The place that some names lead to. Every place on the way has to be a directory; the last place
need not exist. -/
def walk (t : Tree) (l : Location) : List String → Except Obstacle Location
  | [] => .ok l
  | name :: names =>
    match t.lookup? l with
    | none => .error .missing
    | some (.file _) => .error .notDirectory
    | some .directory =>
      if maxNameSize < name.utf8ByteSize then .error .tooLong
      else t.walk (stepTo l name) names

/-- The place that a path leads to. -/
def locate (t : Tree) (p : Path) : Except Obstacle Location :=
  if p.hasNull then .error .unspeakable
  else if maxPathSize < p.text.utf8ByteSize then .error .tooLong
  else t.walk (if p.isAbsolute then [] else t.here) p.parts

/-- The entry that a path leads to. -/
def at? (t : Tree) (p : Path) : Option Entry :=
  match t.locate p with
  | .ok l => t.lookup? l
  | .error _ => none

/-- Whether a path leads to a directory. -/
def isDirectory (t : Tree) (p : Path) : Bool := t.at? p == some .directory

/-- Whether a path leads to a file. -/
def isFile (t : Tree) (p : Path) : Bool := (t.at? p).any (!·.isDirectory)

/-! ## Operations -/

/-- The fault of an operation on one path. -/
def fault (o : Obstacle) (p : Path) : Fault := ⟨o, p.text, none⟩

/-- Whether a path leads to something. A path that is too long leads nowhere and is a fault; any
other path that leads nowhere just does so. -/
def contains (t : Tree) (p : Path) : Except Fault Bool :=
  match t.locate p with
  | .ok l => .ok (t.lookup? l).isSome
  | .error .tooLong => .error (fault .tooLong p)
  | .error _ => .ok false

/-- The bytes of a file. -/
def read (t : Tree) (p : Path) : Except Fault ByteArray :=
  match t.locate p with
  | .error o => .error (fault o p)
  | .ok l =>
    match t.lookup? l with
    | none => .error (fault .missing p)
    | some .directory => .error (fault .isDirectory p)
    | some (.file content) => if t.locked.contains l then .error (fault .denied p) else .ok content

/-- The place and the content of the file that a path names; nothing is in a file that does not
exist yet. -/
def openFile (t : Tree) (p : Path) : Except Fault (Location × ByteArray) :=
  match t.locate p with
  | .error o => .error (fault o p)
  | .ok l =>
    match t.lookup? l with
    | some .directory => .error (fault .isDirectory p)
    | some (.file content) => .ok (l, content)
    | none => if t.isDirectoryAt l.dropLast then .ok (l, .empty) else .error (fault .missing p)

/-- Writes a file, in place of what it held. -/
def write (t : Tree) (p : Path) (content : ByteArray) : Except Fault Tree := do
  let (l, _) ← t.openFile p
  return t.put l (.file content)

/-- Adds to the end of a file, which is made if it does not exist. -/
def append (t : Tree) (p : Path) (more : ByteArray) : Except Fault Tree := do
  let (l, content) ← t.openFile p
  return t.put l (.file (content ++ more))

/-- Makes one directory. -/
def makeDirectory (t : Tree) (p : Path) : Except Obstacle Tree :=
  match t.locate p with
  | .error o => .error o
  | .ok l =>
    match t.lookup? l with
    | some _ => .error .occupied
    | none => if t.isDirectoryAt l.dropLast then .ok (t.put l .directory) else .error .missing

/-- The result of making a directory that may exist already, and the tree that is left. -/
def settle (t : Tree) (p : Path) : Except Obstacle Tree → Except Fault Unit × Tree
  | .ok t => (.ok (), t)
  | .error o => (if o != .missing && t.isDirectory p then .ok () else .error (fault o p), t)

/-- Makes a directory, and before it those on its way that are missing. The tree is what is left
even when this fails: the directories that could be made stay. -/
def makeDirectories (t : Tree) (p : Path) : Except Fault Unit × Tree :=
  go t p.parts.length
where
  /-- Makes the directory of the first `n` names of the path. -/
  go (t : Tree) (n : Nat) : Except Fault Unit × Tree :=
    let q : Path := { p with parts := p.parts.take n }
    match n, t.makeDirectory q with
    | n + 1, .error .missing =>
      match go t n with
      | (.ok (), t) => t.settle q (t.makeDirectory q)
      | refused => refused
    | _, made => t.settle q made

/-- Renames a file or a directory, in place of what the new name stood for. -/
def rename (t : Tree) (source target : Path) : Except Fault Tree :=
  let refuse (o : Obstacle) : Except Fault Tree := .error ⟨o, source.text, some target.text⟩
  match t.locate source, t.locate target with
  | .error o, _ => refuse o
  | _, .error o => refuse o
  | .ok s, .ok d =>
    match t.lookup? s, t.lookup? d with
    | none, _ => refuse .missing
    | some (.file _), some .directory => refuse .isDirectory
    | some .directory, some (.file _) => refuse .notDirectory
    | some e, found =>
      if s = d then .ok t
      else if found.isSome && !(t.below d).isEmpty then refuse .notEmpty
      else if !t.isDirectoryAt d.dropLast then refuse .missing
      else
        let moved := (t.below s).map fun (k, x) => (d ++ k.drop s.length, x)
        let kept := t.entries.filter fun (k, _) => !s.isPrefixOf k
        .ok ({ t with entries := kept ++ moved }.put d e)

/-- The number of bytes of a file. -/
def size (t : Tree) (p : Path) : Except Fault Nat :=
  match t.at? p with
  | some (.file content) => .ok content.size
  | some .directory => .ok 0
  | none => .error (fault .missing p)

/-! ## What operations leave alone -/

theorem lookup_replaced (entries : List (Location × Entry)) (l k : Location) (e : Entry) :
    (replaced entries l e).lookup k = if k = l then some e else entries.lookup k := by
  induction entries with
  | nil =>
    by_cases h : k = l
    · simp [replaced, h]
    · simp [replaced, List.lookup_cons, beq_eq_false_iff_ne.2 h, h]
  | cons x rest ih =>
    obtain ⟨a, d⟩ := x
    unfold replaced
    by_cases hal : a = l
    · subst hal
      by_cases hk : k = a
      · simp [hk]
      · simp [List.lookup_cons, beq_eq_false_iff_ne.2 hk, hk]
    · simp only [hal, ↓reduceIte, List.lookup_cons]
      by_cases hk : k = a
      · subst hk; simp [hal]
      · simp [beq_eq_false_iff_ne.2 hk, ih]

/-- An entry that is put somewhere is found there and nowhere else. The working directory and those
above it stay what they are. -/
theorem lookup?_put (t : Tree) {l : Location} (e : Entry) (k : Location)
    (apart : l.isPrefixOf t.here = false) :
    (t.put l e).lookup? k = if k = l then some e else t.lookup? k := by
  unfold lookup? put
  by_cases h : k = l
  · subst h; simp [apart, lookup_replaced]
  · simp [lookup_replaced, h]

end Tree

end Pinhole.Files
