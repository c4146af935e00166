import Pinhole.Firewall.Toolkit
import Pinhole.Input
import Pinhole.Outcome

/-!
# Punching and plugging holes

Punching a hole installs its accept rule and tracks it; a hole that is open already is a success.
Plugging deletes the rule and tracks the hole no longer; a hole that is not tracked is an error,
because the caller has lost track of its own state. `plugAll` tries every tracked hole once and
fails if any of them stays open.
-/

namespace Pinhole.Toolkit

/-- Reports input that breaks a rule. -/
def refuse (k : Toolkit) (f : Failure) : Action Outcome := do
  k.say .error f.message
  return .validation f.message

/-- Opens a hole that is not open. -/
def openUp (k : Toolkit) (h : Hole) : Action Outcome := do
  k.say .step ("Punching hole for " ++ h.describe)
  if ← k.accept h.rule then
    modify fun s => { s with registry := s.registry.insert h }
    return .success
  else
    k.say .error "Adding ACCEPT rules failed"
    return .external ("Adding ACCEPT rules failed for " ++ h.describe)

/-- Punches a hole. -/
def punch (k : Toolkit) (protocol : Protocol) (port : Value) (interface : String) :
    Action Outcome := do
  match Input.port port with
  | .error e => k.refuse e.failure
  | .ok n =>
    match Input.interface true interface with
    | .error e => k.refuse e.failure
    | .ok i =>
      let h : Hole := ⟨protocol, n, i⟩
      if h ∈ (← get).registry then
        k.say .debug ("Hole already open: " ++ h.describe)
        return .success "already open"
      else
        k.openUp h

/-- Closes a hole that is open. -/
def closeDown (k : Toolkit) (h : Hole) : Action Outcome := do
  k.say .step ("Plugging hole for " ++ h.describe)
  if ← k.unaccept h.rule then
    modify fun s => { s with registry := s.registry.erase h }
    return .success
  else
    k.say .error "Deleting ACCEPT rules failed"
    return .external ("Deleting ACCEPT rules failed for " ++ h.describe)

/-- Plugs a hole. -/
def plug (k : Toolkit) (protocol : Protocol) (port : Value) (interface : String) :
    Action Outcome := do
  match Input.port port with
  | .error e => k.refuse e.failure
  | .ok n =>
    let h : Hole := ⟨protocol, n, interface⟩
    if h ∈ (← get).registry then
      k.closeDown h
    else
      let message := "No open hole for " ++ h.describe
      k.say .error message
      return .state message

/-- Plugs each of some holes in turn, whatever comes of it. -/
def plugEach (k : Toolkit) : List Hole → Action Unit
  | [] => pure ()
  | h :: hs => do
    let _ ← k.plug h.protocol (.int h.port) h.interface
    k.plugEach hs

/-- The failure that reports holes that are still open. -/
def stillOpen (holes : List Hole) : Failure :=
  .teardown ("Failed to plug all holes (" ++ toString holes.length ++ " still open)")
    (holes.map (·.describe))

/-- Plugs every hole. -/
def plugAll (k : Toolkit) : Action Unit := do
  k.plugEach (← get).registry.holes
  let left := (← get).registry.holes
  if !left.isEmpty then
    .fail (stillOpen left)

end Pinhole.Toolkit
