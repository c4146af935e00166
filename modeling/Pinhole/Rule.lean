/-!
# Rules

The four kinds of rules that are put into the packet filters and the routing policy, and the words
with which the tools are told to add or delete one.

An accept rule lets packets to a port in, on one interface or on all of them. A masquerade rule
hides the addresses behind an interface. A mark rule marks what a user sends, and a policy rule
routes marked packets through a table of their own. The words of the two verbs differ in the verb
alone, so that what was added can be deleted.
-/

namespace Pinhole

/-- The transport protocol of a hole. -/
inductive Protocol
  | tcp
  | udp
  deriving DecidableEq, Repr

namespace Protocol

/-- The name of a protocol. -/
def name : Protocol → String
  | .tcp => "tcp"
  | .udp => "udp"

/-- The name of a protocol in capitals. -/
def title : Protocol → String
  | .tcp => "TCP"
  | .udp => "UDP"

/-- The protocol with the given name. -/
def ofName? (s : String) : Option Protocol := [Protocol.tcp, .udp].find? (·.name == s)

/-- The place of a protocol in lists: TCP comes first. -/
def rank : Protocol → Nat
  | .tcp => 0
  | .udp => 1

theorem ofName?_name (p : Protocol) : ofName? p.name = some p := by cases p <;> decide

end Protocol

/-- The version of the internet protocol that a routing policy is about. -/
inductive IpVersion
  | ipv4
  | ipv6
  deriving DecidableEq, Repr

namespace IpVersion

/-- The name of a version. -/
def name : IpVersion → String
  | .ipv4 => "ipv4"
  | .ipv6 => "ipv6"

/-- The name of a version as readers know it. -/
def title : IpVersion → String
  | .ipv4 => "IPv4"
  | .ipv6 => "IPv6"

/-- The version with the given name. -/
def ofName? (s : String) : Option IpVersion := [IpVersion.ipv4, .ipv6].find? (·.name == s)

theorem ofName?_name (v : IpVersion) : ofName? v.name = some v := by cases v <;> decide

end IpVersion

/-- What is done with a rule. -/
inductive Verb
  | add
  | delete
  deriving DecidableEq, Repr

/-- A rule of a packet filter or of the routing policy. -/
inductive Rule
  | accept (protocol : Protocol) (port : Int) (interface : String)
  | masquerade (interface : String)
  | mark (user value : String)
  | policy (version : IpVersion) (value table : String)
  deriving DecidableEq, Repr

namespace Rule

/-- The word for a verb on a chain: `-D` deletes, and what adds is the rule's own choice. -/
def chainVerb (added : String) : Verb → String
  | .add => added
  | .delete => "-D"

/-- The words that tell the tool to add or delete a rule. -/
def words (verb : Verb) : Rule → List String
  | .accept protocol port interface =>
    [chainVerb "-I" verb, "INPUT", "-p", protocol.name, "--dport", toString port] ++
      (if interface.isEmpty then [] else ["-i", interface]) ++ ["-j", "ACCEPT", "-w"]
  | .masquerade interface =>
    ["-t", "nat", chainVerb "-A" verb, "POSTROUTING", "-o", interface, "-j", "MASQUERADE"]
  | .mark user value =>
    ["-t", "mangle", chainVerb "-A" verb, "OUTPUT", "-m", "owner", "--uid-owner", user,
      "-j", "MARK", "--set-mark", value]
  | .policy version value table =>
    (match version with | .ipv4 => [] | .ipv6 => ["-6"]) ++
      ["rule", (match verb with | .add => "add" | .delete => "delete"),
        "fwmark", value, "table", table]

/-- A rule as it is shown to readers. -/
def text : Rule → String
  | .accept protocol port interface =>
    "ACCEPT " ++ protocol.name ++ "/" ++ toString port ++
      (if interface.isEmpty then "" else " on " ++ interface)
  | .masquerade interface => "MASQUERADE out " ++ interface
  | .mark user value => "MARK " ++ value ++ " for user " ++ user
  | .policy version value table => version.name ++ " fwmark " ++ value ++ " -> table " ++ table

end Rule

/-- The two packet filters: the primary one for IPv4, the secondary one for IPv6. -/
inductive Filter
  | primary
  | secondary
  deriving DecidableEq, Repr

namespace Filter

/-- The name of a filter. -/
def name : Filter → String
  | .primary => "primary"
  | .secondary => "secondary"

/-- The filter with the given name. -/
def ofName? (s : String) : Option Filter := [Filter.primary, .secondary].find? (·.name == s)

end Filter

/-- The tools that change rules. -/
inductive Tool
  | filter (f : Filter)
  | routing
  deriving DecidableEq, Repr

/-- One change of one rule by one tool. -/
structure Change where
  tool : Tool
  verb : Verb
  rule : Rule
  deriving DecidableEq, Repr

end Pinhole
