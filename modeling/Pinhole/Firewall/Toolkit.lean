import Pinhole.Config.Settings
import Pinhole.Exec

/-!
# Changing rules

A `Toolkit` knows where the tools are and runs them. Rules for packets are changed in two filters.

An accept rule has to be in the primary filter. The secondary filter is tolerated to fail until it
has worked once; from then on, or from the start if the settings say so, a rule that it refuses is
taken out of the primary filter again. Masquerade and mark rules are always put into both filters:
adding stops when the primary filter refuses, removing goes on in the other filter.
-/

namespace Pinhole

/-- Everything that is needed to change rules. -/
structure Toolkit where
  executor : Executor
  paths : Config.ToolPaths
  mark : String
  table : String

namespace Toolkit

/-- The toolkit that the settings describe. -/
def ofSettings (executor : Executor) (f : Config.Firewall) : Toolkit :=
  ⟨executor, f.tools, f.userTrafficMark, f.userTrafficTable⟩

/-- Where the tool of a filter is. -/
def filterPath (k : Toolkit) : Filter → String
  | .primary => k.paths.iptables
  | .secondary => k.paths.ip6tables

/-- Where a tool is. -/
def path (k : Toolkit) : Tool → String
  | .filter f => k.filterPath f
  | .routing => k.paths.ip

/-- Shows a message. -/
def say (k : Toolkit) (kind : MessageKind) (text : String) : Action Unit :=
  k.executor.console.say kind text

/-- Changes a rule; true if the tool reports success. -/
def apply (k : Toolkit) (c : Change) : Action Bool := do
  let status ← k.executor.runStatus (.change (k.path c.tool) c) netfilterCapabilities
  return status == 0

/-- Changes a rule of one filter. -/
def applyTo (k : Toolkit) (f : Filter) (verb : Verb) (rule : Rule) : Action Bool :=
  k.apply ⟨.filter f, verb, rule⟩

/-- Changes the routing policy for marked packets of one version. -/
def applyPolicy (k : Toolkit) (version : IpVersion) (verb : Verb) : Action Bool :=
  k.apply ⟨.routing, verb, .policy version k.mark k.table⟩

/-! ## Accept rules -/

/-- Adds an accept rule to the secondary filter, or decides what its refusal means. -/
def acceptSecondary (k : Toolkit) (rule : Rule) : Action Bool := do
  if ← k.applyTo .secondary .add rule then
    modify fun s => { s with ipv6 := true }
    return true
  else if (← get).ipv6 then
    k.say .error ("Could not add ACCEPT rule using '" ++ k.paths.ip6tables ++
      "', aborting operation")
    if !(← k.applyTo .primary .delete rule) then
      k.say .error ("Could not remove ACCEPT rule using '" ++ k.paths.iptables ++
        "' after aborting")
    return false
  else
    k.say .warn ("Could not add ACCEPT rule using '" ++ k.paths.ip6tables ++ "', ignoring")
    return true

/-- Adds an accept rule wherever it is required; true if it is installed there. -/
def accept (k : Toolkit) (rule : Rule) : Action Bool := do
  if ← k.applyTo .primary .add rule then
    k.acceptSecondary rule
  else
    k.say .error ("Could not add ACCEPT rule using '" ++ k.paths.iptables ++ "'")
    return false

/-- Deletes an accept rule, from the secondary filter only if that filter is in use. -/
def unaccept (k : Toolkit) (rule : Rule) : Action Bool := do
  let primary ← k.applyTo .primary .delete rule
  if (← get).ipv6 then
    let secondary ← k.applyTo .secondary .delete rule
    return primary && secondary
  else
    return primary

/-! ## Rules for both filters -/

/-- What happens to a rule, as the first word of a message. -/
def doing : Verb → String
  | .add => "Adding"
  | .delete => "Removing"

/-- Changes a rule of one filter, and reports a refusal. -/
def applyReported (k : Toolkit) (f : Filter) (verb : Verb) (rule : Rule) (what : String) :
    Action Bool := do
  let done ← k.applyTo f verb rule
  if !done then
    k.say .error (doing verb ++ " " ++ what ++ " failed using '" ++ k.filterPath f ++ "'")
  return done

/-- Changes a rule of both filters. Adding stops at a refusal of the primary filter. -/
def applyBoth (k : Toolkit) (verb : Verb) (rule : Rule) (what : String) : Action Bool := do
  let primary ← k.applyReported .primary verb rule what
  if !primary && verb == .add then
    return false
  else
    let secondary ← k.applyReported .secondary verb rule what
    return primary && secondary

/-- Changes the masquerading of an interface. -/
def masquerade (k : Toolkit) (interface : String) (verb : Verb) : Action Bool :=
  k.applyBoth verb (.masquerade interface) ("masquerade for interface " ++ interface)

/-- Changes the mark of a user's packets. -/
def markUser (k : Toolkit) (user : String) (verb : Verb) : Action Bool :=
  k.applyBoth verb (.mark user k.mark) ("mark for user " ++ user)

end Toolkit

end Pinhole
