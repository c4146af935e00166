import Pinhole.Task.Desk

/-!
# Holding holes open

Opens the requested holes, keeps them open until the user interrupts, and closes every one of them
before the task ends, whatever happened in between. Each opening is audited, and so is the closing
at the end, unless the task is cut short by an event that it does not know.
-/

namespace Pinhole.Desk

/-- Opens the requested holes one after the other, up to the first that cannot be opened. -/
def openEach (d : Desk) (interface : String) : List (Protocol × Int) → Task Unit
  | [] => pure ()
  | (protocol, port) :: rest => do
    let outcome ← d.toolkit.punch protocol (.int port) interface
    d.audit (.holePunched d.surroundings.stamp (d.ending outcome.isOk) protocol.name (.int port)
      interface (errorText? outcome))
    require outcome ("Could not open " ++ protocol.title ++ " port " ++ toString port)
      "Run with -vvv to see the iptables commands"
    d.openEach interface rest

/-- Waits for the user. The wait ends with an interrupt and in no other way; a dry run only says
that it would wait. The request to terminate counts as an interrupt here. Its handler, which is in
place for as long as the wait lasts, is left out. -/
def waitForUser (d : Desk) : Task Unit := do
  if d.flags.dryRun then
    d.console.show (.dryRun "Keep holes open until interrupted")
  else
    d.console.say .info "Holes are open. Press Ctrl+C or send SIGTERM to close them."
    d.console.show (.line "")

/-- Opens the requested holes and waits. An interrupt while they are opened ends this too. -/
def openAndWait (d : Desk) (ports : List (Protocol × Int)) (interface : String) : Task Unit := do
  match ← Task.attempt (d.openEach interface ports) with
  | .error .interrupted =>
    d.console.show (.line "")
    d.console.say .warn "Interrupted while opening holes"
  | .error h => throw h
  | .ok () =>
    d.console.say .success ("Opened " ++ toString ports.length ++ " hole(s)")
    d.waitForUser

/-- Whether a part of a task ended by itself or with a failure that is reported. -/
def endedInOrder : Except Halt Unit → Bool
  | .ok () | .error (.failed _) => true
  | .error _ => false

/-- Closes every hole, after a part of the task that ended in the given way. Holes that stay open
are a failure of their own, which goes before the one that was there. Nothing is audited when the
part was cut short. -/
def closeAfter (d : Desk) (opened : Except Halt Unit) : Task Unit := do
  let stamp := d.surroundings.stamp
  match ← Task.attempt d.toolkit.plugAll with
  | .error (.failed f) =>
    d.audit (.holesPlugged stamp .failure f.remaining (some f.message))
    throw (.failed f)
  | .error h => throw h
  | .ok () =>
    if endedInOrder opened then
      d.audit (.holesPlugged stamp (d.ending true))
    Task.resume opened
    d.console.say .success "All holes closed"

/-- Holds the requested holes open until the user interrupts. -/
def hold (d : Desk) (ports : List (Protocol × Int)) (interface : String) : Task Unit := do
  let opened ← Task.attempt (d.openAndWait ports interface)
  d.closeAfter opened

end Pinhole.Desk

namespace Pinhole

/-- The failure of a call that asks for no port. -/
def noPorts : Failure :=
  .validation "No ports to open" (some "Pass at least one --tcp or --udp port")

/-- The task of holding holes open. -/
def Task.hold (w : Surroundings) (f : Flags) (ports : List (Protocol × Int)) (interface : String) :
    Task Unit := do
  let d ← Desk.open w f
  d.requireRoot
  Task.handled d.console do
    if ports.isEmpty then
      throw (.failed noPorts)
    Task.correlated w "hole_hold" (d.hold ports interface)

end Pinhole
