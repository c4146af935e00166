import Pinhole.Config.Settings
import Pinhole.Unforeseen
import Pinhole.Yaml.Writer

/-!
# Writing settings

All settings of a machine as the text of a settings file: the two sections with every setting in its
place, one to a line. A number may have too many digits to be written; only the timeout of commands
can, because it is the only number.
-/

namespace Pinhole.Config

/-- A setting as it is written. -/
inductive Written
  | nothing
  | flag (b : Bool)
  | number (n : Int)
  | text (s : String)
  deriving DecidableEq, Repr

/-- A text that may be absent, as it is written. -/
def Written.ofText? : Option String → Written
  | some s => .text s
  | none => .nothing

/-- The column to which the lines of a long text are indented. -/
def textIndent : Nat := 4

/-- Writes the value of a setting after its name. -/
def Written.put (s : Yaml.Sheet) : Written → Yaml.Sheet
  | .nothing => s.put "null".toList
  | .flag b => s.put (if b then "true" else "false").toList
  | .number n => s.put (toString n).toList
  | .text t => Yaml.putText textIndent s t

/-- One setting on its line. -/
def settingLine (name : String) (v : Written) : String :=
  let s : Yaml.Sheet := {}
  ((v.put (s.put ("  " ++ name ++ ": ").toList)).feed).text

/-- The settings of the packet filters in their order. -/
def Firewall.written (f : Firewall) : List (String × Written) :=
  [("platform", .text f.platform.name),
    ("iptables_path", .ofText? f.iptablesPath),
    ("ip6tables_path", .ofText? f.ip6tablesPath),
    ("ip_path", .ofText? f.ipPath),
    ("unprivileged_user", .ofText? f.unprivilegedUser),
    ("ipv6_always_enabled", .flag f.ipv6AlwaysEnabled),
    ("user_traffic_mark", .text f.userTrafficMark),
    ("user_traffic_table", .text f.userTrafficTable),
    ("command_timeout", match f.commandTimeout with | some n => .number n | none => .nothing)]

/-- The settings of the audit trail in their order. -/
def Audit.written (a : Audit) : List (String × Written) :=
  [("enabled", .flag a.enabled), ("log_path", .text a.logPath.text)]

/-- One section of a settings file. -/
def sectionText (name : String) (settings : List (String × Written)) : String :=
  name ++ ":\n" ++ String.join (settings.map fun (k, v) => settingLine k v)

/-- Numbers from here on have too many decimal digits to be written. -/
def writtenBound : Nat := Nat.pow 10 4300

/-- The text of a number. -/
def numberText (n : Int) : Except Unforeseen String :=
  if n.natAbs < writtenBound then .ok (toString n) else .error .unwritable

/-- The text of the timeout of commands, if there is one. -/
def Firewall.timeoutText (f : Firewall) : Except Unforeseen (Option String) :=
  f.commandTimeout.mapM numberText

/-- The text of a settings file that holds all settings. -/
def Machine.text (m : Machine) : Except Unforeseen String := do
  let _ ← m.firewall.timeoutText
  return sectionText "firewall" m.firewall.written ++ sectionText "audit" m.audit.written

end Pinhole.Config
