import Pinhole.Audit.Journal
import Pinhole.Config.Load
import Pinhole.Flags
import Pinhole.Session

/-!
# Tasks

A task is the whole of what one call of the program does. Besides what happens in a session it can
read and write files, load settings and open audited operations. It ends by itself, or early: with
an exit code, at an interrupt, or with a failure or another event that nobody handled.
-/

namespace Pinhole

/-- Why a task ends early. -/
inductive Halt
  | interrupted
  | failed (f : Failure)
  | unforeseen (e : Unforeseen)
  | exit (code : Nat)
  deriving DecidableEq, Repr

namespace Halt

/-- A session that stops ends the task. -/
def ofStop : Stop → Halt
  | .interrupted => .interrupted
  | .failed f => .failed f

/-- Settings that cannot be loaded end the task. -/
def ofProblem : Config.Problem → Halt
  | .failed f => .failed f
  | .unforeseen e => .unforeseen e

end Halt

/-- What a task finds around it. -/
structure Surroundings where
  environment : Config.Variables := []
  /-- The program runs as root. -/
  root : Bool := true
  respond : Responder
  /-- Who runs the program, and when. -/
  stamp : Audit.Stamp
  /-- The token of each audited operation, by its number. -/
  token : Nat → String

/-- The state of a task. -/
structure TaskState extends Session where
  files : Files.Tree := {}
  trail : Audit.Trail := {}

/-- The whole of what one call does. -/
abbrev Task := ExceptT Halt (StateM TaskState)

namespace Task

variable {α β : Type}

/-- What a task does to its state. -/
def on (x : Task α) (s : TaskState) : Except Halt α × TaskState := StateT.run (ExceptT.run x) s

/-- Ends the task with an exit code. -/
def exit (code : Nat) : Task α := throw (.exit code)

/-- Acts in the session of the task. -/
def act (x : Action α) : Task α :=
  ExceptT.mk (fun s =>
    match x.on s.toSession with
    | (.ok a, t) => (.ok a, { s with toSession := t })
    | (.error e, t) => (.error (.ofStop e), { s with toSession := t }) :
    StateM TaskState (Except Halt α))

instance (priority := low) : MonadLift Action Task := ⟨act⟩

/-- Runs a task and tells how it ended. -/
def attempt (x : Task α) : Task (Except Halt α) :=
  ExceptT.mk
    (fun s => let (r, t) := x.on s; (.ok r, t) : StateM TaskState (Except Halt (Except Halt α)))

/-- Goes on as a task that ended so. -/
def resume : Except Halt α → Task α
  | .ok a => return a
  | .error h => throw h

/-- Gives what could be loaded, or ends with the problem. -/
def loaded : Except Config.Problem α → Task α
  | .ok a => return a
  | .error p => throw (.ofProblem p)

/-- Gives what was made, or ends with the event that prevented it. -/
def foreseen : Except Unforeseen α → Task α
  | .ok a => return a
  | .error e => throw (.unforeseen e)

/-- Runs a task as one audited operation, which is closed however the task ends. -/
def correlated (w : Surroundings) (operation : String) (x : Task α) : Task α :=
  ExceptT.mk (fun s =>
    let (r, t) := x.on { s with trail := s.trail.enter w.token operation }
    (r, { t with trail := t.trail.leave }) : StateM TaskState (Except Halt α))

/-- Reports a failure and ends with its exit code. -/
def report (c : Console) (f : Failure) : Task Unit := do
  c.say .error f.message
  for detail in f.details do
    c.show (.line ("  [dim]" ++ detail ++ "[/dim]"))
  if let some hint := f.hint.filter (!·.isEmpty) then
    c.say .hint hint
  exit f.exitCode

/-- Runs a task, and reports the failure if it ends with one. -/
def handled (c : Console) (x : Task Unit) : Task Unit := do
  match ← attempt x with
  | .error (.failed f) => report c f
  | r => resume r

/-! ## What tasks do -/

@[simp] theorem on_pure (a : α) (s : TaskState) : (pure a : Task α).on s = (.ok a, s) := rfl

@[simp] theorem on_throw (h : Halt) (s : TaskState) :
    (throw h : Task α).on s = (.error h, s) := rfl

@[simp] theorem on_exit (code : Nat) (s : TaskState) :
    (exit code : Task α).on s = (.error (.exit code), s) := rfl

@[simp] theorem on_get (s : TaskState) : (get : Task TaskState).on s = (.ok s, s) := rfl

@[simp] theorem on_modify (f : TaskState → TaskState) (s : TaskState) :
    (modify f : Task Unit).on s = (.ok (), f s) := rfl

@[simp] theorem on_attempt (x : Task α) (s : TaskState) :
    (attempt x).on s = (.ok (x.on s).1, (x.on s).2) := rfl

@[simp] theorem on_resume (r : Except Halt α) (s : TaskState) : (resume r).on s = (r, s) := by
  cases r <;> rfl

/-- An action changes nothing but the session. -/
theorem on_act (x : Action α) (s : TaskState) :
    (act x).on s =
      match x.on s.toSession with
      | (.ok a, t) => (.ok a, { s with toSession := t })
      | (.error e, t) => (.error (.ofStop e), { s with toSession := t }) := rfl

/-- A task runs its first part, and the rest unless that ended it. -/
theorem on_bind (x : Task α) (f : α → Task β) (s : TaskState) :
    (x >>= f).on s =
      match x.on s with
      | (.ok a, t) => (f a).on t
      | (.error e, t) => (.error e, t) := by
  rw [on, ExceptT.run_bind, StateT.run_bind]
  unfold on
  cases StateT.run (ExceptT.run x) s with
  | mk r t =>
    cases r with
    | ok a => rfl
    | error e => rfl

end Task

end Pinhole
