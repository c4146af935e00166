import Pinhole.Json.Writer
import Pinhole.Rule

/-!
# Audit events

One change of the firewall as the audit trail keeps it: what kind of change it is, how it ended,
what it was about, and who made it when. An event is stored as one line of JSON.
-/

namespace Pinhole.Audit

/-- The kinds of events. -/
inductive EventKind
  | holePunched
  | holesPlugged
  | steeringSetUp
  | steeringTornDown
  deriving DecidableEq, Repr

namespace EventKind

/-- The name of a kind of events. -/
def name : EventKind → String
  | .holePunched => "hole.punch"
  | .holesPlugged => "hole.plug_all"
  | .steeringSetUp => "vpn.setup"
  | .steeringTornDown => "vpn.teardown"

/-- The kind of events with the given name. -/
def ofName? (s : String) : Option EventKind :=
  [EventKind.holePunched, .holesPlugged, .steeringSetUp, .steeringTornDown].find? (·.name == s)

theorem ofName?_name (k : EventKind) : ofName? k.name = some k := by cases k <;> decide

end EventKind

/-- How a change ended. -/
inductive Ending
  | success
  | failure
  | dryRun
  deriving DecidableEq, Repr

namespace Ending

/-- The name of an ending. -/
def name : Ending → String
  | .success => "success"
  | .failure => "failure"
  | .dryRun => "dry_run"

/-- The ending with the given name. -/
def ofName? (s : String) : Option Ending :=
  [Ending.success, .failure, .dryRun].find? (·.name == s)

theorem ofName?_name (e : Ending) : ofName? e.name = some e := by cases e <;> decide

/-- The ending of a change that worked or not; a dry run changes nothing. -/
def of (dryRun ok : Bool) : Ending :=
  if dryRun then .dryRun else if ok then .success else .failure

end Ending

/-- Who makes a change, and when. -/
structure Stamp where
  uid : Int
  time : String
  deriving DecidableEq, Repr

/-- One change of the firewall. Events about a hole have a protocol, a port and an interface; events
about all holes list those that stay open; events about steering have users and an interface. -/
structure Event where
  kind : EventKind
  ending : Ending
  interface : String := ""
  protocol : Option String := none
  port : Value := .null
  users : List String := []
  remaining : List String := []
  /-- What went wrong. -/
  error : Option String := none
  stamp : Stamp
  /-- The operation that the change is a part of. -/
  correlation : Option String := none

namespace Event

/-- Nothing, or a text. -/
def optional : Option String → Value
  | some s => .text s
  | none => .null

/-- The fields of an event by name. -/
def record (e : Event) : Value :=
  .record
    [("correlation_id", optional e.correlation),
      ("error", optional e.error),
      ("event_type", .text e.kind.name),
      ("interface", .text e.interface),
      ("port", e.port),
      ("protocol", optional e.protocol),
      ("remaining", .list (e.remaining.map .text)),
      ("result", .text e.ending.name),
      ("timestamp", .text e.stamp.time),
      ("uid", .int e.stamp.uid),
      ("usernames", .list (e.users.map .text))]

/-- The line that stores an event, without its end. -/
def line (e : Event) : String := Json.write e.record

/-- A hole was punched, or should have been. -/
def holePunched (stamp : Stamp) (ending : Ending) (protocol : String) (port : Value)
    (interface : String) (error : Option String := none) : Event :=
  { kind := .holePunched, ending, interface, protocol := some protocol, port, error, stamp }

/-- Every hole was plugged, or should have been. -/
def holesPlugged (stamp : Stamp) (ending : Ending) (remaining : List String := [])
    (error : Option String := none) : Event :=
  { kind := .holesPlugged, ending, remaining, error, stamp }

/-- The steering of users was set up or torn down, or should have been. -/
def steeringChanged (stamp : Stamp) (ending : Ending) (verb : Verb) (users : List String)
    (interface : String) (error : Option String := none) : Event :=
  { kind := match verb with | .add => .steeringSetUp | .delete => .steeringTornDown,
    ending, interface, users, error, stamp }

end Event

end Pinhole.Audit
