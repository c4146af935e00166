import Pinhole.Failure

/-!
# Outcomes

The result of an operation on holes or on steering. Validation problems, failures of the tools and
errors of tracking are told apart; only an `ok` outcome counts as a success.
-/

namespace Pinhole

/-- The classes of results. -/
inductive OutcomeKind
  | ok
  | validation
  | external
  | state
  deriving DecidableEq, Repr

/-- The name of a class of results. -/
def OutcomeKind.name : OutcomeKind → String
  | .ok => "ok"
  | .validation => "validation_error"
  | .external => "external_failure"
  | .state => "state_error"

/-- The class of results with the given name. -/
def OutcomeKind.ofName? (s : String) : Option OutcomeKind :=
  [OutcomeKind.ok, .validation, .external, .state].find? (·.name == s)

/-- The result of an operation. -/
structure Outcome where
  kind : OutcomeKind
  message : Option String := none
  deriving DecidableEq, Repr

namespace Outcome

/-- Whether the operation succeeded. -/
def isOk (o : Outcome) : Bool := o.kind == .ok

/-- The operation succeeded. -/
def success (message : Option String := none) : Outcome := ⟨.ok, message⟩

/-- The input broke a rule. -/
def validation (message : String) : Outcome := ⟨.validation, some message⟩

/-- A tool failed. -/
def external (message : String) : Outcome := ⟨.external, some message⟩

/-- The operation does not fit what is tracked. -/
def state (message : String) : Outcome := ⟨.state, some message⟩

/-- An outcome in one line: its class, and its message if there is one. -/
def text (o : Outcome) : String :=
  match o.message with
  | some m => if m.isEmpty then o.kind.name else o.kind.name ++ ": " ++ m
  | none => o.kind.name

/-- The failure that reports an outcome, unless it is a success. The outcome's own message becomes
the detail; a validation problem has no hint. -/
def failure? (o : Outcome) (message : String) (hint : Option String) : Option Failure :=
  let details := (o.message.filter (!·.isEmpty)).toList
  match o.kind with
  | .ok => none
  | .validation => some (.validation message none details)
  | .external | .state => some (.firewall message hint details)

/-- Exactly the successes need no report. -/
theorem failure?_eq_none_iff (o : Outcome) (message : String) (hint : Option String) :
    o.failure? message hint = none ↔ o.isOk = true := by
  obtain ⟨kind, m⟩ := o
  cases kind <;> simp [failure?, isOk]

end Outcome

/-- A class is found under its name. -/
theorem OutcomeKind.ofName?_name (k : OutcomeKind) : ofName? k.name = some k := by
  cases k <;> decide

end Pinhole
