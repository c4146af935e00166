import Pinhole.Console.Basic
import Pinhole.Files.Path

/-!
# General flags

What a caller may ask of every command: a dry run, how much is said, whether there is colour, and
which settings file is read. Asking for quiet goes before every wish for more.
-/

namespace Pinhole

/-- The general flags of one call. -/
structure Flags where
  dryRun : Bool := false
  /-- By how much more is said. -/
  verbose : Int := 0
  quiet : Bool := false
  noColor : Bool := false
  /-- The settings file; none leaves the choice to the environment. -/
  config : Option Path := none
  deriving DecidableEq, Repr

namespace Flags

/-- How much is said. It is not above the rank of debugging, and can be below that of quiet. -/
def verbosity (f : Flags) : Int :=
  if f.quiet then Verbosity.quiet.rank
  else min (Verbosity.normal.rank + f.verbose) Verbosity.debug.rank

/-- Whether more than usual is said. -/
def isVerbose (f : Flags) : Bool := (Verbosity.verbose.rank : Int) ≤ f.verbosity

/-- The console that the flags ask for. -/
def console (f : Flags) : Console := ⟨.ofInt f.verbosity, f.dryRun⟩

theorem verbosity_of_quiet {f : Flags} (h : f.quiet = true) : f.verbosity = 0 := by
  simp [verbosity, h, Verbosity.rank]

end Flags

end Pinhole
