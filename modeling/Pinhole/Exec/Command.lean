import Pinhole.Rule

/-!
# Commands

What the program asks the system to run, and how the system answers. A command is a change of a
rule or a plain list of words; either way `Command.words` is what reaches the tool.
-/

namespace Pinhole

/-- The capabilities that a command may keep. -/
inductive Capability
  | netAdmin
  | netRaw
  deriving DecidableEq, Repr

namespace Capability

/-- The name of a capability. -/
def name : Capability → String
  | .netAdmin => "net_admin"
  | .netRaw => "net_raw"

/-- All capabilities, in the order of their names. -/
def all : List Capability := [.netAdmin, .netRaw]

/-- The capability with the given name. -/
def ofName? (s : String) : Option Capability := all.find? (·.name == s)

theorem ofName?_name (c : Capability) : ofName? c.name = some c := by cases c <;> decide

end Capability

/-- What the tools that change rules need. -/
def netfilterCapabilities : List Capability := [.netAdmin, .netRaw]

/-- Something to run. -/
inductive Command
  /-- A change of a rule by the tool at the given path. -/
  | change (path : String) (c : Change)
  | plain (ws : List String)
  deriving DecidableEq, Repr

namespace Command

/-- The words of a command, the tool first. -/
def words : Command → List String
  | .change path c => path :: c.rule.words c.verb
  | .plain ws => ws

/-- The change of a rule that a command makes, if it is one. -/
def change? : Command → Option Change
  | .change _ c => some c
  | .plain _ => none

end Command

/-- How the system answers a command. -/
inductive Answer
  | exited (status : Int) (output errors : String)
  | timedOut
  | notStarted (reason : String)
  /-- The user interrupted the program while the command ran. No interrupt comes at another time,
  but for the one that ends the wait for the user. -/
  | interrupted
  deriving DecidableEq, Repr

/-- The answer of a command that works and says nothing. -/
def Answer.silent : Answer := .exited 0 "" ""

/-- Whether a command took effect. -/
def Answer.isSuccess : Answer → Bool
  | .exited 0 _ _ => true
  | _ => false

/-- A process that was started, or should have been. -/
structure Spawned where
  command : Command
  /-- The words of the process, which may wrap those of the command. -/
  argv : List String
  timeout : Option Int
  capture : Bool
  answer : Answer
  deriving DecidableEq, Repr

/-- How the system answers: it may look at everything that was spawned before. -/
abbrev Responder := List Spawned → List String → Answer

/-- The system on which every command works and says nothing. -/
def Responder.silent : Responder := fun _ _ => .silent

end Pinhole
