import Pinhole.Audit.Clock
import Pinhole.Console.Page
import Pinhole.Program
import Pinhole.Text.Hex

/-!
# The command line

Reads from the machine what a call may look at, makes the call, and carries out what it left: the
files that it changed, the items that it showed and its exit code. No process is started from here,
so every command of a call that is no dry run answers that it could not be.
-/

namespace Pinhole.Host

/-- The path of a location. -/
def pathText (l : Files.Location) : String := "/" ++ "/".intercalate l

/-- What is found at a location. A file that must not be read is found locked. -/
def entryAt (l : Files.Location) : IO (Option (Files.Entry × Bool)) := do
  try
    return some (.file (← IO.FS.readBinFile (pathText l)), false)
  catch
    | .noFileOrDirectory .. => return none
    | .permissionDenied .. => return some (.file .empty, true)
    | _ => return some (.directory, false)

/-- Looks at every place on the way to a path, up to the first where nothing is. -/
def observe (t : Files.Tree) (p : Path) : IO Files.Tree :=
  go t (if p.isAbsolute then [] else t.here) p.parts
where
  /-- Looks at the places that some names lead to. -/
  go (t : Files.Tree) (l : Files.Location) : List String → IO Files.Tree
    | [] => return t
    | name :: names => do
      let l := Files.Tree.stepTo l name
      match ← entryAt l with
      | none => return t
      | some (e, locked) =>
        let t := t.put l e
        go (if locked then { t with locked := l :: t.locked } else t) l names

/-- The variables that a call reads. -/
def environment : IO Config.Variables := do
  let names := ["FWD_CONFIG", "FWD_AUDIT_LOG"]
  let found ← names.mapM fun name => return (← IO.getEnv name).map fun value => (name, value)
  return found.filterMap id

/-- The settings file that the words of a call name. -/
def namedSettings (words : List String) : Option Path :=
  match CommandLine.read {} words with
  | .request (.hold f ..) | .request (.steer f ..) | .request (.showSettings f)
  | .request (.initSettings f _) | .request (.checkSettings f) => f.config
  | _ => none

/-- The files that a call may look at. -/
def files (vars : Config.Variables) (words : List String) : IO Files.Tree := do
  let here := (Path.ofText (← IO.currentDir).toString).parts
  let t ← observe { here } Config.envFile
  let named := namedSettings words
  let overridden :=
    match Config.Overrides.read t vars with
    | .ok o => o.config
    | .error _ => none
  let t ← observe t ((named <|> overridden).getD Config.standardPath)
  match Config.InForce.load t vars named with
  | .error _ => return t
  | .ok settings =>
    let journal := Audit.Journal.kept settings.auditLog settings.machine.audit.enabled
    let backups := (List.range journal.backups).map fun n => journal.backup (n + 1)
    (journal.path :: backups).foldlM observe t

/-- Carries out the changes from one tree to another. -/
def carryOut (before after : Files.Tree) : IO Unit := do
  for (l, e) in after.entries do
    if before.entries.lookup l != some e then
      match e with
      | .directory => IO.FS.createDirAll (pathText l)
      | .file content => IO.FS.writeBinFile (pathText l) content
  for (l, e) in before.entries do
    if !e.isDirectory && (after.entries.lookup l).isNone then
      IO.FS.removeFile (pathText l)

/-- The first numbers on the line of a text that begins with a word. -/
def numbersAfter (word text : String) : List Nat :=
  match (text.splitOn "\n").find? (·.startsWith word) with
  | some line =>
    ((String.ofList (line.toList.map fun c => if c.isDigit then c else ' ')).splitOn " ").filterMap
      (·.toNat?)
  | none => []

/-- The real and the effective user of this process. -/
def users : IO (Nat × Nat) := do
  match numbersAfter "Uid:" (← IO.FS.readFile "/proc/self/status") with
  | real :: effective :: _ => return (real, effective)
  | _ => return (0, 1)

/-- The text of this moment: the seconds of the start of the system and those since then. -/
def now : IO String := do
  let start := (numbersAfter "btime" (← IO.FS.readFile "/proc/stat")).headD 0
  match numbersAfter "" (← IO.FS.readFile "/proc/uptime") with
  | seconds :: hundredths :: _ => return Audit.Clock.text (start + seconds) (hundredths * 10000)
  | _ => return Audit.Clock.text start 0

/-- The tokens of audited operations, from a random start. -/
def tokens : IO (Nat → String) := do
  let bytes ← IO.getRandomBytes 6
  let start := bytes.toList.foldl (fun n b => n * 256 + b.toNat) 0
  return fun n => String.ofList (Text.hexDigits .lower 12 (start + n))

/-- What a call finds on this machine. -/
def surroundings (vars : Config.Variables) : IO Surroundings := do
  let (real, effective) ← users
  return {
    environment := vars
    root := effective == 0
    respond := fun _ _ => .notStarted "No process can be started from here"
    stamp := ⟨real, ← now⟩
    token := ← tokens }

/-- What is said about a problem that nobody handled. -/
def escapedText : Config.Problem → String
  | .failed f => f.message
  | .unforeseen e => e.message

end Pinhole.Host

open Pinhole in
/-- Makes the call that the words ask for. -/
def main (words : List String) : IO UInt32 := do
  let vars ← Host.environment
  let before ← Host.files vars words
  let (ending, state) := call (← Host.surroundings vars) before words
  Host.carryOut before state.files
  for item in state.shown do
    match item.stream with
    | .out => IO.print (Page.draw item)
    | .err => IO.eprint (Page.draw item)
  if let .escaped p := ending then
    IO.eprintln (Host.escapedText p)
  return ending.code.toUInt32
