import Pinhole.Value
import Pinhole.Yaml.Fault

/-!
# Values with faults

Values are made level by level: everything that a collection holds is made after everything that
stands beside the collection. So of several faults the outermost is reported, and among those of one
level the first. A `Built` value carries its first fault with the level at which it is found, counted
from the value itself.
-/

namespace Pinhole.Yaml

/-- The first fault of a value, with the level at which it is found. -/
abbrev Finding := Option (Nat × Fault)

namespace Finding

/-- The earlier of two findings: the one of the lesser level, or the one made first. -/
def first (a b : Finding) : Finding :=
  match a, b with
  | some (m, _), some (n, _) => if n < m then b else a
  | some _, none => a
  | none, b => b

/-- A finding as it is seen from one level further out. -/
def deeper (a : Finding) : Finding := a.map fun (n, f) => (n + 1, f)

theorem first_none (a : Finding) : a.first none = a := by cases a <;> rfl

/-- A fault of the value itself comes before all others. -/
theorem first_zero (f : Fault) (b : Finding) : first (some (0, f)) b = some (0, f) := by
  cases b <;> simp [first]

end Finding

/-- A value that is made even where something is wrong, and the first fault in it. -/
structure Built (α : Type) where
  value : α
  finding : Finding := none

namespace Built

/-- A value in whose place something is wrong. -/
def faulty {α : Type} (value : α) (f : Fault) : Built α := ⟨value, some (0, f)⟩

/-- What is made of a value that stands one level further in. -/
def outer {α β : Type} (b : Built α) (f : α → β) : Built β := ⟨f b.value, b.finding.deeper⟩

/-- Values made one after the other. -/
def all {α : Type} : List (Built α) → Built (List α)
  | [] => ⟨[], none⟩
  | b :: bs =>
    let rest := all bs
    ⟨b.value :: rest.value, b.finding.first rest.finding⟩

/-- The value that a result gives. -/
def ofResult : Except Fault Value → Built Value
  | .ok v => ⟨v, none⟩
  | .error f => faulty .null f

end Built

end Pinhole.Yaml
