import Pinhole.Config.Fault

/-!
# Failures

A failure that the program reports to its user: a message, an optional hint on what to do, details
for debugging, and a kind. The kind carries what is particular to it and decides the exit code of
the process.
-/

namespace Pinhole

/-- The kinds of failures. -/
inductive FailureKind
  | general
  /-- A settings file that cannot be used, with the refused settings when it could be read. -/
  | configuration (faults : Option (List Config.Fault))
  | validation
  | execution (command : Option String) (status : Option Int) (errors : Option String)
  | firewall (rule : Option String)
  | teardown (remaining : List String)
  deriving DecidableEq, Repr

/-- The exit code of a process that ends with a failure of this kind. -/
def FailureKind.exitCode : FailureKind → Nat
  | .general => 1
  | .configuration _ => 2
  | .validation => 3
  | .execution .. => 5
  | .firewall _ => 15
  | .teardown _ => 20

/-- A failure that is reported to the user. -/
structure Failure where
  kind : FailureKind
  message : String
  hint : Option String := none
  details : List String := []
  deriving DecidableEq, Repr

namespace Failure

/-- The exit code of a process that ends with this failure. -/
def exitCode (f : Failure) : Nat := f.kind.exitCode

/-- Input that breaks a rule. -/
def validation (message : String) (hint : Option String := none) (details : List String := []) :
    Failure :=
  ⟨.validation, message, hint, details⟩

/-- A settings file that cannot be used. -/
def configuration (message : String) (hint : Option String := none) (details : List String := []) :
    Failure :=
  ⟨.configuration none, message, hint, details⟩

/-- A change of the firewall that did not work out. -/
def firewall (message : String) (hint : Option String := none) (details : List String := [])
    (rule : Option String := none) : Failure :=
  ⟨.firewall rule, message, hint, details⟩

/-- A command that could not be run to success. Its exit status and its error output, if there is
any, are added to the details. -/
def execution (message : String) (command : Option String := none) (status : Option Int := none)
    (errors : Option String := none) (hint : Option String := none) (details : List String := []) :
    Failure :=
  let ofStatus := (status.map fun n => "Exit code: " ++ toString n).toList
  let ofErrors := ((errors.filter (!·.isEmpty)).map ("Error output: " ++ ·)).toList
  ⟨.execution command status errors, message, hint, details ++ ofStatus ++ ofErrors⟩

/-- The holes that a failure reports as still open. -/
def remaining (f : Failure) : List String :=
  match f.kind with
  | .teardown holes => holes
  | _ => []

/-- What to do about holes that stay open. -/
def teardownHint : String := "Inspect the INPUT chain and remove the listed rules by hand"

/-- Holes that are still open after all of them should have been closed. -/
def teardown (message : String) (remaining : List String) (hint : Option String := none) :
    Failure :=
  ⟨.teardown remaining, message, some ((hint.filter (!·.isEmpty)).getD teardownHint),
    remaining.map ("Still open: " ++ ·)⟩

end Failure

end Pinhole
