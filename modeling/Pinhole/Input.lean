import Pinhole.Failure
import Pinhole.Value

/-!
# Rules for input

What may be a port, an interface and a user. A port is an integer from 1 to 65535. An interface has
fewer than sixteen letters, digits, hyphens and periods and neither begins nor ends with a hyphen or
a period; the empty name means any interface. A user is a name of at most thirty-two letters,
digits, underscores, periods and hyphens that does not begin with a hyphen; one dollar sign may end
it.

Each rule is a predicate, and each check answers with the value itself or with the failure that
quotes it. These are what keeps options out of the command lines that are built from the values.
-/

namespace Pinhole.Input

/-! ## Ports -/

/-- The least port. -/
def minPort : Int := 1

/-- The greatest port. -/
def maxPort : Int := 65535

/-- Why a value is no port. -/
inductive PortFault
  | notInteger (v : Value)
  | outOfRange (n : Int)

/-- The failure that reports a value that is no port. An integer is spelled out however many digits
it has: the bound for numbers among the settings (`Config.writtenBound`) does not hold here. -/
def PortFault.failure : PortFault → Failure
  | .notInteger v =>
    .validation ("Invalid port number: " ++ v.display) (some "Port must be an integer")
  | .outOfRange n =>
    .validation ("Invalid port number: " ++ toString n)
      (some ("Port must be between " ++ toString minPort ++ " and " ++ toString maxPort))

/-- The port that a value is. -/
def port : Value → Except PortFault Int
  | .int n => if minPort ≤ n ∧ n ≤ maxPort then .ok n else .error (.outOfRange n)
  | v => .error (.notInteger v)

/-! ## Interfaces -/

/-- The length that the name of an interface stays below. -/
def interfaceSize : Nat := 16

/-- Characters of the name of an interface. -/
def isInterfaceChar (c : Char) : Bool := c.isAlphanum || c == '-' || c == '.'

/-- Whether a name is empty or may name an interface. -/
def isInterface (name : String) : Bool :=
  let cs := name.toList
  let outer (c : Option Char) : Bool := c == some '-' || c == some '.'
  decide (cs.length < interfaceSize) && !outer cs.head? && !outer cs.getLast? &&
    cs.all isInterfaceChar

/-- Why a text does not name an interface. -/
inductive InterfaceFault
  | empty
  | malformed (name : String)

/-- The failure that reports a text that names no interface. -/
def InterfaceFault.failure : InterfaceFault → Failure
  | .empty =>
    .validation "Interface name cannot be empty"
      (some "Provide an interface such as 'tun0' or 'eth0'")
  | .malformed name =>
    .validation ("Invalid interface name: '" ++ name ++ "'")
      (some ("Use fewer than " ++ toString interfaceSize ++
        " letters, digits, hyphens or periods, not starting or ending with '-' or '.'"))

/-- The interface that a text names; whether the empty text may stand for any interface is the
caller's choice. -/
def interface (allowEmpty : Bool) (name : String) : Except InterfaceFault String :=
  if name.isEmpty && !allowEmpty then .error .empty
  else if isInterface name then .ok name
  else .error (.malformed name)

/-! ## Users -/

/-- The greatest length of a user's name. -/
def maxUserLength : Nat := 32

/-- Characters that may begin a user's name. -/
def isUserStart (c : Char) : Bool := c.isAlphanum || c == '_' || c == '.'

/-- Characters of a user's name after the first. -/
def isUserChar (c : Char) : Bool := isUserStart c || c == '-'

/-- Whether the rest of a user's name after its first character is well formed. -/
def isUserTail : List Char → Bool
  | [] => true
  | ['$'] => true
  | c :: cs => isUserChar c && isUserTail cs

/-- Whether a text may name a user. -/
def isUser (name : String) : Bool :=
  match name.toList with
  | [] => false
  | c :: cs => decide (cs.length < maxUserLength) && isUserStart c && isUserTail cs

/-- The failure that reports a text that names no user. -/
def userFailure (name : String) : Failure :=
  .validation ("Invalid user name: '" ++ name ++ "'")
    (some ("Use at most " ++ toString maxUserLength ++
      " letters, digits, '_', '.' or '-' (not starting with '-'), or a numeric uid"))

/-- The user that a text names. -/
def user (name : String) : Except Failure String :=
  if isUser name then .ok name else .error (userFailure name)

/-! ## What the checks accept -/

/-- Exactly the integers in range are ports. -/
theorem port_eq_ok_iff (v : Value) (n : Int) :
    port v = .ok n ↔ v = .int n ∧ minPort ≤ n ∧ n ≤ maxPort := by
  cases v <;> simp [port]
  split <;> simp_all <;> omega

/-- A check of an interface that succeeds gives the name back, and the name is well formed. -/
theorem interface_eq_ok {allowEmpty : Bool} {name out : String}
    (h : interface allowEmpty name = .ok out) : out = name ∧ isInterface name = true := by
  unfold interface at h
  split at h
  · cases h
  · split at h
    · rename_i hi
      exact ⟨(Except.ok.inj h).symm, hi⟩
    · cases h

/-- Every name that is well formed and not empty names an interface. -/
theorem interface_eq_ok_self {allowEmpty : Bool} {name : String} (nonempty : name ≠ "")
    (h : isInterface name = true) : interface allowEmpty name = .ok name := by
  have hname : name.isEmpty = false := by simpa using nonempty
  simp [interface, hname, h]

/-- A check of a user succeeds exactly for the well-formed names. -/
theorem user_eq_ok_iff (name : String) : user name = .ok name ↔ isUser name = true := by
  unfold user
  split <;> simp_all

end Pinhole.Input
