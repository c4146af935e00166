import Pinhole.Text.Quoted

/-!
# Faults of files

Why an operation on files fails: what stands in its way, and the path or the two paths that the
operation was given. The system has a number for each obstacle but one: a path with a null character
in it never reaches the system.
-/

namespace Pinhole.Files

/-- What stands in the way of an operation. -/
inductive Obstacle
  | missing
  | denied
  | occupied
  | notDirectory
  | isDirectory
  | notEmpty
  | tooLong
  /-- The path holds a null character. -/
  | unspeakable
  deriving DecidableEq, Repr

namespace Obstacle

/-- The number that the system gives to an obstacle; zero for the one that it never meets. -/
def number : Obstacle → Nat
  | .missing => 2
  | .denied => 13
  | .occupied => 17
  | .notDirectory => 20
  | .isDirectory => 21
  | .notEmpty => 39
  | .tooLong => 36
  | .unspeakable => 0

/-- What the system says about an obstacle. -/
def text : Obstacle → String
  | .missing => "No such file or directory"
  | .denied => "Permission denied"
  | .occupied => "File exists"
  | .notDirectory => "Not a directory"
  | .isDirectory => "Is a directory"
  | .notEmpty => "Directory not empty"
  | .tooLong => "File name too long"
  | .unspeakable => "embedded null byte"

end Obstacle

/-- A failed operation on files. -/
structure Fault where
  obstacle : Obstacle
  path : String
  /-- The second path of a renaming. -/
  target : Option String := none
  deriving DecidableEq, Repr

/-- Whether it was the system that refused the operation. -/
def Fault.isOfSystem (f : Fault) : Bool := f.obstacle != .unspeakable

/-- A failed operation in one line. -/
def Fault.text (f : Fault) : String :=
  if !f.isOfSystem then f.obstacle.text
  else "[Errno " ++ toString f.obstacle.number ++ "] " ++ f.obstacle.text ++ ": " ++
    Text.quoted f.path ++ (match f.target with | some t => " -> " ++ Text.quoted t | none => "")

end Pinhole.Files
