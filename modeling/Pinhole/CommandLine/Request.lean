import Pinhole.CommandLine.Words
import Pinhole.Config.Check
import Pinhole.Files.Tree
import Pinhole.Flags
import Pinhole.Rule

/-!
# Requests

What a command line asks for. Commands come in groups; a group without a word is misused, and so is
a command that misses something or gets something that it does not know. Asking for help or for the
version wins over everything but switches that cannot be read.
-/

namespace Pinhole.CommandLine

/-- What the program is asked to do. -/
inductive Request
  | hold (flags : Flags) (ports : List (Protocol × Int)) (interface : String)
  | steer (flags : Flags) (verb : Verb) (users : List String) (interface : String)
  | showSettings (flags : Flags)
  | initSettings (flags : Flags) (force : Bool)
  | checkSettings (flags : Flags)
  | showExample
  deriving DecidableEq, Repr

/-- The meaning of a command line. -/
inductive Meaning
  | misuse
  | help
  | version
  | request (r : Request)
  deriving DecidableEq, Repr

/-- What a switch asks for if it goes before all else. -/
def urgent? : Switch → Option Meaning
  | .help => some .help
  | .version => some .version
  | _ => none

/-- The first of the switches that goes before all else. -/
def Given.urgent? (g : Given) : Option Meaning :=
  g.switches.findSome? fun (s, _) => CommandLine.urgent? s

/-- The ports that a switch gives. -/
def Given.ports (g : Given) (s : Switch) : Option (List Int) :=
  (g.values s).mapM fun text => (Config.intOfText text).toOption

/-- The settings file that is named. It must not be a directory nor hold a null character. -/
def Given.settingsPath (g : Given) (t : Files.Tree) : Option (Option Path) :=
  match g.last? .config with
  | none => some none
  | some text =>
    let path := Path.ofText text
    if path.hasNull || (!text.isEmpty && t.isDirectory path) then none else some (some path)

/-- The general flags that are given. -/
def Given.flags (g : Given) (t : Files.Tree) : Option Flags := do
  let config ← g.settingsPath t
  return {
    dryRun := g.has .dryRun
    verbose := g.count .verbose
    quiet := g.has .quiet
    noColor := g.has .noColor
    config }

/-! ## Commands -/

/-- The general switches. -/
def generalSwitches : List Switch := [.dryRun, .verbose, .quiet, .noColor, .config]

/-- A command: the switches that it knows besides the one for help, and the request that it makes of
what is given. -/
structure Command where
  known : List Switch
  request : Files.Tree → Given → Option Request

namespace Command

/-- Holding holes open takes ports and no operand. -/
def hold : Command where
  known := [.tcp, .udp, .interface] ++ generalSwitches
  request t g := do
    guard g.operands.isEmpty
    let tcp ← g.ports .tcp
    let udp ← g.ports .udp
    let flags ← g.flags t
    return .hold flags (tcp.map (Protocol.tcp, ·) ++ udp.map (Protocol.udp, ·))
      ((g.last? .interface).getD "")

/-- Steering takes users and an interface. -/
def steer (verb : Verb) : Command where
  known := .interface :: generalSwitches
  request t g := do
    guard !g.operands.isEmpty
    let interface ← g.last? .interface
    let flags ← g.flags t
    return .steer flags verb g.operands interface

/-- Showing settings takes no operand. -/
def showSettings : Command where
  known := [.config, .verbose, .noColor]
  request t g := do
    guard g.operands.isEmpty
    return .showSettings (← g.flags t)

/-- Starting a settings file takes no operand. -/
def initSettings : Command where
  known := [.config, .force, .noColor]
  request t g := do
    guard g.operands.isEmpty
    return .initSettings (← g.flags t) (g.has .force)

/-- Checking settings takes no operand. -/
def checkSettings : Command where
  known := [.config, .noColor]
  request t g := do
    guard g.operands.isEmpty
    return .checkSettings (← g.flags t)

/-- The example takes nothing. -/
def showExample : Command where
  known := []
  request _ g := do
    guard g.operands.isEmpty
    return .showExample

/-- What a command makes of its words. -/
def read (c : Command) (t : Files.Tree) (words : List String) : Meaning :=
  match scan (.help :: c.known) true words with
  | none => .misuse
  | some g =>
    match g.urgent? with
    | some m => m
    | none =>
      match c.request t g with
      | some r => .request r
      | none => .misuse

end Command

/-! ## Groups -/

/-- What a group makes of its words: its switches come first, then the name of one of its members
and the words for that. A name that is unknown is looked at as a switch once more. -/
def readGroup (known : List Switch) (member? : String → Option (List String → Meaning))
    (words : List String) : Meaning :=
  let urgentOf (words : List String) : Option Meaning :=
    (scan known false words).bind (·.urgent?)
  match scan known false words with
  | none => .misuse
  | some g =>
    match g.urgent?, g.operands with
    | some m, _ => m
    | none, [] => .misuse
    | none, name :: rest =>
      match member? name with
      | some next => next rest
      | none => (urgentOf (name :: rest)).getD .misuse

/-- The commands of the group for holes. -/
def holeCommand? : String → Option Command
  | "hold" => some .hold
  | _ => none

/-- The commands of the group for steering. -/
def steeringCommand? : String → Option Command
  | "up" => some (.steer .add)
  | "down" => some (.steer .delete)
  | _ => none

/-- The commands of the group for settings. -/
def settingsCommand? : String → Option Command
  | "show" => some .showSettings
  | "init" => some .initSettings
  | "validate" => some .checkSettings
  | "example" => some .showExample
  | _ => none

/-- The commands of a group by its name. -/
def group? : String → Option (String → Option Command)
  | "hole" => some holeCommand?
  | "vpn" => some steeringCommand?
  | "config" => some settingsCommand?
  | _ => none

/-- The meaning of a command line, on a machine with the given files. -/
def read (t : Files.Tree) (words : List String) : Meaning :=
  readGroup [.version, .help]
    (fun name => (group? name).map fun command? =>
      readGroup [.help] fun name => (command? name).map fun c => c.read t)
    words

end Pinhole.CommandLine
