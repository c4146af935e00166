/-!
# Paths

The text form of a path: up to two slashes in front, and names separated by slashes. Empty names
and single dots say nothing and are dropped, so each path is written in one way; double dots stay,
because what they lead to depends on the files. The path of no names is the working directory and
is written as a single dot.
-/

namespace Pinhole

/-- A path as a list of names. `slashes` counts the slashes in front: none for a path from the
working directory, one or two for a path from the root. -/
structure Path where
  slashes : Nat
  parts : List String
  deriving DecidableEq, Repr

namespace Path

/-- Whether a name says where to go. -/
def isPart (name : String) : Bool := name != "" && name != "."

/-- The path that a text writes. Three or more slashes in front count as one. -/
def ofText (s : String) : Path :=
  let lead := (s.toList.takeWhile (· == '/')).length
  { slashes := if lead ≤ 2 then lead else 1
    parts := ((s.toList.splitOn '/').map String.ofList).filter isPart }

/-- The text of a path. -/
def text (p : Path) : String :=
  let names := "/".intercalate p.parts
  if p.slashes = 0 ∧ p.parts = [] then "."
  else String.ofList (List.replicate p.slashes '/') ++ names

/-- The last name of a path, empty when there is none. -/
def name (p : Path) : String := p.parts.getLast?.getD ""

/-- The path without its last name. -/
def parent (p : Path) : Path := { p with parts := p.parts.dropLast }

/-- The path with another last name. -/
def withName (p : Path) (name : String) : Path := { p with parts := p.parts.dropLast ++ [name] }

/-- Whether a name of the path holds a null character. -/
def hasNull (p : Path) : Bool := p.parts.any fun name => name.toList.contains (Char.ofNat 0)

/-- Whether the path starts at the root. -/
def isAbsolute (p : Path) : Bool := p.slashes != 0

@[simp] theorem parent_withName (p : Path) (name : String) :
    (p.withName name).parent = p.parent := by
  simp [parent, withName]

@[simp] theorem name_withName (p : Path) (name : String) : (p.withName name).name = name := by
  simp [Path.name, withName]

end Path

end Pinhole
