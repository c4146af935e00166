import Pinhole.Firewall.Holes
import Pinhole.Firewall.Steering
import Pinhole.Task

/-!
# The desk of a task

What a task that changes the firewall has at hand: the settings in force, the toolkit that they
describe, the journal, and the flags of the call. Only root may change the firewall, unless this is
a dry run.
-/

namespace Pinhole

/-- What a task that changes the firewall has at hand. -/
structure Desk where
  surroundings : Surroundings
  flags : Flags
  toolkit : Toolkit
  journal : Audit.Journal

/-- The exit code of a task that only root may do. -/
def notRootCode : Nat := 6

namespace Desk

/-- The desk for the settings in force. -/
def ofSettings (w : Surroundings) (f : Flags) (c : Config.InForce) : Desk where
  surroundings := w
  flags := f
  toolkit :=
    .ofSettings
      { console := f.console, dryRun := f.dryRun, root := w.root,
        account := c.machine.firewall.account, timeout := c.machine.firewall.commandTimeout,
        respond := w.respond }
      c.machine.firewall
  journal := .kept c.auditLog c.machine.audit.enabled

/-- Loads the settings, takes what they say about the secondary filter for known, and sets up the
desk. -/
def «open» (w : Surroundings) (f : Flags) : Task Desk := do
  let settings ← Task.loaded (Config.InForce.load (← get).files w.environment f.config)
  modify fun s => { s with ipv6 := settings.machine.firewall.ipv6AlwaysEnabled }
  return ofSettings w f settings

/-- The console of the task. -/
def console (d : Desk) : Console := d.flags.console

/-- Ends the task unless it may change the firewall. -/
def requireRoot (d : Desk) : Task Unit := do
  if !d.surroundings.root && !d.flags.dryRun then
    d.console.say .error "This operation requires root privileges"
    d.console.say .hint "Run with: sudo fwd ..."
    Task.exit notRootCode

/-- How a change ended, for the journal. -/
def ending (d : Desk) (ok : Bool) : Audit.Ending := .of d.flags.dryRun ok

/-- Stores an event, and warns if that does not work. -/
def audit (d : Desk) (e : Audit.Event) : Task Unit := do
  let s ← get
  let (stored, files) := d.journal.log (e.under s.trail) s.files
  set { s with files }
  match stored with
  | .ok none => return
  | .ok (some text) => d.console.say .warn text
  | .error f => throw (.unforeseen (.file f))

/-- What an outcome says went wrong. -/
def errorText? (o : Outcome) : Option String := if o.isOk then none else some o.text

/-- Ends the task with the failure that reports an outcome, unless it is a success. -/
def require (o : Outcome) (message hint : String) : Task Unit := do
  if let some f := o.failure? message (some hint) then
    throw (.failed f)

end Desk

end Pinhole
