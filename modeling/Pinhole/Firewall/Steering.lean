import Pinhole.Firewall.Toolkit
import Pinhole.Input
import Pinhole.Outcome

/-!
# Steering users into a VPN

Steering takes four kinds of rules, in this order: the routing policy for marked packets of IPv4,
the same for IPv6, masquerading on the interface, and one mark rule for each user.

`setUp` is all or nothing: at the first step that fails, the steps before it are undone, the newest
first. `tearDown` attempts every step whatever happens to the others and reports whether all of them
worked; malformed user names are skipped.
-/

namespace Pinhole

/-- One step of steering. -/
inductive SteeringStep
  | policy (version : IpVersion)
  | masquerade (interface : String)
  | mark (user : String)
  deriving DecidableEq, Repr

namespace SteeringStep

/-- The steps that steer some users into an interface, in the order of setting up. -/
def all (users : List String) (interface : String) : List SteeringStep :=
  [.policy .ipv4, .policy .ipv6, .masquerade interface] ++ users.map .mark

/-- What a step puts in place. -/
def subject : SteeringStep → String
  | .policy version => "rule for " ++ version.title ++ " user traffic"
  | .masquerade interface => "masquerade on '" ++ interface ++ "'"
  | .mark user => "mark for user " ++ user

end SteeringStep

/-- The part of a setup that is installed. -/
structure SteeringProgress where
  ipv4Rule : Bool := false
  ipv6Rule : Bool := false
  masquerade : Bool := false
  users : List String := []
  deriving DecidableEq, Repr

namespace SteeringProgress

/-- Whether nothing is installed. -/
def isEmpty (p : SteeringProgress) : Bool :=
  !(p.ipv4Rule || p.ipv6Rule || p.masquerade || !p.users.isEmpty)

/-- The installed steps, in the order of setting up. -/
def steps (p : SteeringProgress) (interface : String) : List SteeringStep :=
  (if p.ipv4Rule then [.policy .ipv4] else []) ++
    (if p.ipv6Rule then [.policy .ipv6] else []) ++
    (if p.masquerade then [.masquerade interface] else []) ++
    p.users.map .mark

/-- Nothing is installed exactly when there is no step to undo. -/
theorem steps_eq_nil_iff (p : SteeringProgress) (interface : String) :
    p.steps interface = [] ↔ p.isEmpty = true := by
  obtain ⟨a, b, c, us⟩ := p
  cases a <;> cases b <;> cases c <;> cases us <;> simp [steps, isEmpty]

end SteeringProgress

namespace Toolkit

/-- Takes a step, or takes it back. -/
def applyStep (k : Toolkit) (verb : Verb) : SteeringStep → Action Bool
  | .policy version => k.applyPolicy version verb
  | .masquerade interface => k.masquerade interface verb
  | .mark user => k.markUser user verb

/-- Takes back each of some steps in turn; true if all of them worked. -/
def removeEach (k : Toolkit) (label : String) : List SteeringStep → Action Bool
  | [] => return true
  | step :: steps => do
    let what := label ++ "Remove " ++ step.subject
    k.say .debug what
    let done ← k.applyStep .delete step
    if !done then
      k.say .error (what ++ " failed")
    let rest ← k.removeEach label steps
    return done && rest

/-- Undoes the installed steps, the newest first; true if all of that worked. -/
def undo (k : Toolkit) (installed : List SteeringStep) : Action Bool := do
  k.say .warn "Rolling back VPN setup..."
  k.removeEach "Rollback: " installed.reverse

/-- Undoes the installed part of a setup. -/
def rollBack (k : Toolkit) (p : SteeringProgress) (interface : String) : Action Bool :=
  k.undo (p.steps interface)

/-- Gives up a setup at a step that failed. -/
def abort (k : Toolkit) (installed : List SteeringStep) (step : SteeringStep) : Action Outcome := do
  let message := "Adding " ++ step.subject ++ " failed"
  k.say .error message
  if !installed.isEmpty then
    if !(← k.undo installed) then
      k.say .error "Rollback of VPN setup was incomplete"
  return .external message

/-- Takes the steps that are left, after the installed ones. -/
def install (k : Toolkit) (installed : List SteeringStep) : List SteeringStep → Action Outcome
  | [] => return .success
  | step :: steps => do
    if ← k.applyStep .add step then
      k.install (installed ++ [step]) steps
    else
      k.abort installed step

/-- What a message says about some users and an interface. -/
def steeringText (users : List String) (interface : String) : String :=
  "VPN steering on '" ++ interface ++ "' for " ++ toString users.length ++ " user(s)"

/-- Steers users into an interface. The names have been checked. -/
def setUp (k : Toolkit) (users : List String) (interface : String) : Action Outcome := do
  k.say .step ("Setting up " ++ steeringText users interface)
  k.install [] (SteeringStep.all users interface)

/-- Reports each user name that is skipped. -/
def skipEach (k : Toolkit) : List String → Action Unit
  | [] => pure ()
  | user :: users => do
    k.say .error ("Skipping removal of mark: " ++ (Input.userFailure user).message)
    k.skipEach users

/-- Takes back the steering of users. -/
def tearDown (k : Toolkit) (users : List String) (interface : String) : Action Outcome := do
  k.say .step ("Removing " ++ steeringText users interface)
  let skipped := users.filter (!Input.isUser ·)
  k.skipEach skipped
  let removed ← k.removeEach "" (SteeringStep.all (users.filter (Input.isUser ·)) interface)
  if !skipped.isEmpty then
    return .validation ("Invalid user name(s) skipped: " ++ ", ".intercalate skipped)
  else if removed then
    return .success
  else
    return .external ("Removing VPN steering on '" ++ interface ++ "' failed")

/-- The first of some names that is no user's. -/
def firstBadUser? (users : List String) : Option String := users.find? (!Input.isUser ·)

/-- Sets up or takes back the steering of users into an interface. To set up, every name has to be
well formed. -/
def steer (k : Toolkit) (users : List String) (interface : String) (verb : Verb) :
    Action Outcome := do
  match Input.interface false interface with
  | .error e =>
    k.say .error e.failure.message
    return .validation e.failure.message
  | .ok interface =>
    match verb, firstBadUser? users with
    | .add, some user =>
      let message := (Input.userFailure user).message
      k.say .error message
      return .validation message
    | .add, none => k.setUp users interface
    | .delete, _ => k.tearDown users interface

end Toolkit

end Pinhole
