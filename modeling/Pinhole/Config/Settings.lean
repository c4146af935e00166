import Pinhole.Files.Path

/-!
# Settings

What a machine's settings file decides: which tools change the rules and as whom they run, the mark
and the table of steered traffic, and the audit trail. Every setting has a default.
-/

namespace Pinhole.Config

/-- The platforms whose tool locations are known. -/
inductive Platform
  | android
  | linux
  deriving DecidableEq, Repr

namespace Platform

/-- The name of a platform. -/
def name : Platform → String
  | .android => "android"
  | .linux => "linux"

/-- All platforms, in the order of their names. -/
def all : List Platform := [.android, .linux]

/-- The platform with the given name. -/
def ofName? (s : String) : Option Platform := all.find? (·.name == s)

theorem ofName?_name (p : Platform) : ofName? p.name = some p := by cases p <;> decide

end Platform

/-- Where the three tools are. -/
structure ToolPaths where
  /-- The tool of the primary filter. -/
  iptables : String
  /-- The tool of the secondary filter. -/
  ip6tables : String
  /-- The tool of the routing policy. -/
  ip : String
  deriving DecidableEq, Repr

/-- Where a platform keeps the tools. -/
def Platform.tools : Platform → ToolPaths
  | .linux => ⟨"/sbin/iptables", "/sbin/ip6tables", "/bin/ip"⟩
  | .android => ⟨"/system/bin/iptables", "/system/bin/ip6tables", "/system/bin/ip"⟩

/-- The settings of the packet filters and the routing policy. -/
structure Firewall where
  platform : Platform := .linux
  iptablesPath : Option String := none
  ip6tablesPath : Option String := none
  ipPath : Option String := none
  /-- The account that commands run as; none runs them as the caller. -/
  unprivilegedUser : Option String := some "nobody"
  /-- The secondary filter has to work from the start. -/
  ipv6AlwaysEnabled : Bool := false
  userTrafficMark : String := "1"
  userTrafficTable : String := "1"
  /-- The seconds after which a command is given up. -/
  commandTimeout : Option Int := none
  deriving DecidableEq, Repr

namespace Firewall

/-- A location, or the default when none is given. -/
def located (given : Option String) (standard : String) : String :=
  (given.filter (!·.isEmpty)).getD standard

/-- Where the tools are, by the settings or else by the platform. -/
def tools (f : Firewall) : ToolPaths where
  iptables := located f.iptablesPath f.platform.tools.iptables
  ip6tables := located f.ip6tablesPath f.platform.tools.ip6tables
  ip := located f.ipPath f.platform.tools.ip

/-- The account that commands drop to. On Android the tools keep the caller's. -/
def account (f : Firewall) : Option String :=
  match f.platform with
  | .android => none
  | .linux => f.unprivilegedUser

/-- Whether commands drop to another account. -/
def dropsPrivileges (f : Firewall) : Bool := f.account.isSome

end Firewall

/-- The settings of the audit trail. -/
structure Audit where
  enabled : Bool := true
  logPath : Path := Path.ofText "/var/log/fwd/audit.log"
  deriving DecidableEq, Repr

/-- All settings of a machine. -/
structure Machine where
  firewall : Firewall := {}
  audit : Audit := {}
  deriving DecidableEq, Repr

end Pinhole.Config
