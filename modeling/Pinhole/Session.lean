import Pinhole.Console.Basic
import Pinhole.Exec.Command
import Pinhole.Failure
import Pinhole.Hole

/-!
# Sessions

What has happened so far: the processes that were spawned, the items that were shown, the holes
that are open, and whether the secondary filter is known to work. An `Action` changes a session and
ends with a value, or stops early; what it did before it stopped stays done.
-/

namespace Pinhole

/-- Why an action stops early. -/
inductive Stop
  /-- The user interrupts the program. -/
  | interrupted
  | failed (f : Failure)
  deriving DecidableEq, Repr

/-- The state of a session. -/
structure Session where
  spawned : List Spawned := []
  shown : List Item := []
  registry : Registry := {}
  /-- Whether the secondary filter is known to work. Once it is, it stays so. -/
  ipv6 : Bool := false

/-- Something that is done in a session. -/
abbrev Action := ExceptT Stop (StateM Session)

namespace Action

/-- What an action does to a session. -/
def on {α : Type} (x : Action α) (s : Session) : Except Stop α × Session :=
  StateT.run (ExceptT.run x) s

/-- Fails with a report for the user. -/
def fail {α : Type} (f : Failure) : Action α := throw (.failed f)

end Action

/-- Shows an item, if the console shows items of its kind.

That this always works is an assumption about the renderer, which does not hold of every message:
`Page.render` says which ones it refuses because of what it takes for markup in them. Here such an
item counts as shown, and the action goes on. -/
def Console.show (c : Console) (item : Item) : Action Unit :=
  modify fun s => if c.shows item then { s with shown := s.shown ++ [item] } else s

/-- Shows a message. -/
def Console.say (c : Console) (kind : MessageKind) (text : String) : Action Unit :=
  c.show (.message kind text)

namespace Action

variable {α β : Type}

@[simp] theorem on_pure (a : α) (s : Session) : (pure a : Action α).on s = (.ok a, s) := rfl

@[simp] theorem on_throw (e : Stop) (s : Session) : (throw e : Action α).on s = (.error e, s) := rfl

@[simp] theorem on_fail (f : Failure) (s : Session) :
    (fail f : Action α).on s = (.error (.failed f), s) := rfl

@[simp] theorem on_get (s : Session) : (get : Action Session).on s = (.ok s, s) := rfl

@[simp] theorem on_modify (f : Session → Session) (s : Session) :
    (modify f : Action Unit).on s = (.ok (), f s) := rfl

/-- An action runs its first part, and the rest unless that stopped. -/
theorem on_bind (x : Action α) (f : α → Action β) (s : Session) :
    (x >>= f).on s =
      match x.on s with
      | (.ok a, t) => (f a).on t
      | (.error e, t) => (.error e, t) := by
  rw [on, ExceptT.run_bind, StateT.run_bind]
  unfold on
  cases StateT.run (ExceptT.run x) s with
  | mk r t =>
    cases r with
    | ok a => rfl
    | error e => rfl

end Action

/-- An item that the console shows is the last one shown. -/
theorem Console.on_show (c : Console) (item : Item) (s : Session) :
    (c.show item).on s =
      (.ok (), if c.shows item then { s with shown := s.shown ++ [item] } else s) := rfl

end Pinhole
