import Pinhole.Audit.Event

/-!
# Correlation of events

Events that belong to one operation carry its identifier. Operations may be nested: the identifier
in force is that of the innermost operation that is open, and outside of all operations there is
none. Leaving an operation puts the identifier back in force that was so before entering it
(`leave_enter`).
-/

namespace Pinhole.Audit

/-- The operations that are open, innermost first, and how many were opened so far. -/
structure Trail where
  scopes : List String := []
  issued : Nat := 0
  deriving DecidableEq, Repr

namespace Trail

/-- The identifier in force. -/
def current? (t : Trail) : Option String := t.scopes.head?

/-- The identifier of the next operation: its name and a token of its own. -/
def nextId (token : Nat → String) (operation : String) (t : Trail) : String :=
  operation ++ "-" ++ token (t.issued + 1)

/-- Opens an operation inside those that are open. -/
def enter (token : Nat → String) (operation : String) (t : Trail) : Trail where
  scopes := t.nextId token operation :: t.scopes
  issued := t.issued + 1

/-- Closes the innermost operation. -/
def leave (t : Trail) : Trail := { t with scopes := t.scopes.tail }

@[simp] theorem current?_enter (token : Nat → String) (operation : String) (t : Trail) :
    (t.enter token operation).current? = some (t.nextId token operation) := rfl

@[simp] theorem scopes_leave_enter (token : Nat → String) (operation : String) (t : Trail) :
    (t.enter token operation).leave.scopes = t.scopes := rfl

/-- Leaving an operation puts what was in force before it back in force. -/
theorem leave_enter (token : Nat → String) (operation : String) (t : Trail) :
    (t.enter token operation).leave.current? = t.current? := rfl

end Trail

/-- The event with the identifier in force. -/
def Event.under (t : Trail) (e : Event) : Event := { e with correlation := t.current? }

end Pinhole.Audit
