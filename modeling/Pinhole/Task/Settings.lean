import Pinhole.Config.Init
import Pinhole.Config.Writer
import Pinhole.Task

/-!
# Settings as a task

Showing the settings in force, checking them, starting a settings file, and printing the example of
one.
-/

namespace Pinhole

/-- A text, or a dash for none. -/
def Cell.ofText? (s : Option String) : Cell := (s.map Cell.text).getD .absent

/-- The settings in force as a table shows them. -/
def Config.InForce.rows (c : Config.InForce) : Except Unforeseen (List (String × Cell)) := do
  let f := c.machine.firewall
  let timeout ← f.timeoutText
  return [("Platform", .text f.platform.name),
    ("iptables", .text f.tools.iptables),
    ("ip6tables", .text f.tools.ip6tables),
    ("ip", .text f.tools.ip),
    ("Run commands as", .text (f.account.getD "caller")),
    ("IPv6 always enabled", .flag f.ipv6AlwaysEnabled),
    ("User traffic mark", .text f.userTrafficMark),
    ("User traffic table", .text f.userTrafficTable),
    ("Command timeout (s)", .ofText? timeout),
    ("Audit log", .text (if c.machine.audit.enabled then c.auditLog.text else "disabled"))]

/-- What a reader should know about settings that are valid. `found` tells whether their file
exists. -/
def Config.InForce.warnings (c : Config.InForce) (found : Bool) : List String :=
  (if found then [] else [c.path.text ++ " not found, using defaults"]) ++
    (if c.machine.firewall.dropsPrivileges then []
      else ["iptables and ip run with full root privileges"]) ++
    (if c.machine.audit.enabled then [] else ["Audit logging is disabled"])

namespace Task

/-- Loads the settings in force. -/
def settings (w : Surroundings) (f : Flags) : Task Config.InForce := do
  loaded (Config.InForce.load (← get).files w.environment f.config)

/-- Shows the settings in force, and the file that they make up if more is to be said. -/
def showSettings (w : Surroundings) (f : Flags) : Task Unit :=
  handled f.console do
    let c ← settings w f
    f.console.show (.table ("fwd settings (" ++ c.path.text ++ ")") (← foreseen c.rows))
    if f.isVerbose then
      f.console.show (.listing c.path.text (← foreseen c.machine.text))

/-- Checks the settings in force. -/
def checkSettings (w : Surroundings) (f : Flags) : Task Unit :=
  handled f.console do
    let c ← settings w f
    f.console.say .success ("Configuration is valid: " ++ c.path.text)
    let found ← loaded (Config.fileExists (← get).files c.path)
    for warning in c.warnings found do
      f.console.say .warn warning

/-- The file that a new settings file is started as. -/
def initPath (w : Surroundings) (f : Flags) : Task Path := do
  match f.config with
  | some path => return path
  | none =>
    let overrides ← foreseen (Config.Overrides.read (← get).files w.environment)
    return overrides.config.getD Config.standardPath

/-- Starts a settings file. -/
def initSettings (w : Surroundings) (f : Flags) (force : Bool) : Task Unit := do
  let path ← initPath w f
  handled f.console do
    let s ← get
    let (made, files) := Config.init s.files path force
    set { s with files }
    loaded made
    f.console.say .success ("Configuration file created: " ++ path.text)

/-- Prints the example of a settings file. -/
def showExample : Task Unit := Console.show {} (.verbatim Config.exampleText)

end Task

end Pinhole
