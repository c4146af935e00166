import Pinhole.Files.Tree

/-!
# Work on files

A `Filing` changes a file tree step by step and stops at the first fault. What it did before the
fault stays done.
-/

namespace Pinhole.Files

/-- Something that is done to a file tree. -/
abbrev Filing := ExceptT Fault (StateM Tree)

namespace Filing

variable {α β : Type}

/-- What the work does to a tree. -/
def on (x : Filing α) (t : Tree) : Except Fault α × Tree := StateT.run (ExceptT.run x) t

/-- Reads something off the tree. -/
def look (f : Tree → Except Fault α) : Filing α :=
  ExceptT.mk (fun t => (f t, t) : StateM Tree (Except Fault α))

/-- Changes the tree; a change that has a fault leaves it as it is. -/
def change (f : Tree → Except Fault Tree) : Filing Unit :=
  ExceptT.mk (fun t => match f t with | .ok t => (.ok (), t) | .error e => (.error e, t) :
    StateM Tree (Except Fault Unit))

/-- Changes the tree and says what it leaves even if there is a fault. -/
def attempt (f : Tree → Except Fault α × Tree) : Filing α :=
  ExceptT.mk (f : StateM Tree (Except Fault α))

@[simp] theorem on_pure (a : α) (t : Tree) : (pure a : Filing α).on t = (.ok a, t) := rfl

@[simp] theorem on_look (f : Tree → Except Fault α) (t : Tree) : (look f).on t = (f t, t) := rfl

@[simp] theorem on_attempt (f : Tree → Except Fault α × Tree) (t : Tree) :
    (attempt f).on t = f t := rfl

/-- A change is made unless it has a fault. -/
theorem on_change (f : Tree → Except Fault Tree) (t : Tree) :
    (change f).on t = match f t with | .ok t => (.ok (), t) | .error e => (.error e, t) := rfl

/-- The work does its first part, and the rest unless there was a fault. -/
theorem on_bind (x : Filing α) (f : α → Filing β) (t : Tree) :
    (x >>= f).on t =
      match x.on t with
      | (.ok a, u) => (f a).on u
      | (.error e, u) => (.error e, u) := by
  rw [on, ExceptT.run_bind, StateT.run_bind]
  unfold on
  cases StateT.run (ExceptT.run x) t with
  | mk r u =>
    cases r with
    | ok a => rfl
    | error e => rfl

end Filing

end Pinhole.Files
