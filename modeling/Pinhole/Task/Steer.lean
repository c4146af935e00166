import Pinhole.Task.Desk

/-!
# Steering as a task

Sets up or tears down the steering of some users into an interface, as one audited operation.
-/

namespace Pinhole

/-- The name of setting up or tearing down. -/
def steeringName : Verb → String
  | .add => "setup"
  | .delete => "teardown"

/-- Steers users into an interface or stops doing so, and audits it. -/
def Desk.steer (d : Desk) (verb : Verb) (users : List String) (interface : String) : Task Unit := do
  let what := "VPN " ++ steeringName verb
  d.console.say .step (what ++ " on " ++ interface ++ " for " ++ ", ".intercalate users)
  let outcome ← d.toolkit.steer users interface verb
  d.audit (.steeringChanged d.surroundings.stamp (d.ending outcome.isOk) verb users interface
    (Desk.errorText? outcome))
  Desk.require outcome (what ++ " failed on " ++ interface)
    "Run with -vvv to see the iptables and ip commands"
  d.console.say .success (what ++ " complete on " ++ interface)

/-- The task of steering. -/
def Task.steer (w : Surroundings) (f : Flags) (verb : Verb) (users : List String)
    (interface : String) : Task Unit := do
  let d ← Desk.open w f
  d.requireRoot
  Task.handled d.console
    (Task.correlated w ("vpn_" ++ steeringName verb) (d.steer verb users interface))

end Pinhole
