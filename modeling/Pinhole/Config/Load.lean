import Pinhole.Config.Check
import Pinhole.Config.EnvFile
import Pinhole.Failure
import Pinhole.Files.Content
import Pinhole.Files.Tree
import Pinhole.Unforeseen
import Pinhole.Yaml.Document

/-!
# Loading settings

Where the settings come from: a file named on the command line, or by the environment, or the
standard one; and what of them the environment overrides. A file that does not exist means the
defaults, unless it is loaded by name. The environment goes before the environment file.
-/

namespace Pinhole.Config

/-- Why settings could not be loaded. -/
inductive Problem
  | failed (f : Failure)
  | unforeseen (e : Unforeseen)
  deriving DecidableEq, Repr

/-- The settings file when no other is named. -/
def standardPath : Path := .ofText "/etc/fwd/config.yaml"

/-! ## Documents -/

/-- The failure that reports settings that do not fit. -/
def invalid (report : String) (faults : Option (List Fault)) : Failure :=
  ⟨.configuration faults, "Invalid configuration: " ++ report, none, [report]⟩

/-- The settings that a document describes. An empty document describes the defaults; any other has
to be a mapping with texts for keys. -/
def Machine.ofDocument (v : Value) : Except Failure Machine :=
  if v.isBlank then .ok {}
  else
    match v with
    | .mapping entries =>
      if entries.all fun (k, _) => k.isText then
        match Machine.ofEntries entries with
        | .ok m => .ok m
        | .error faults => .error (invalid (Fault.report faults) (some faults))
      else .error (invalid "keywords must be strings" none)
    | v =>
      .error (invalid ("fwd.core.config.MachineConfig() argument after ** must be a mapping, not "
        ++ v.kindName) none)

/-- The settings that a settings file describes. -/
def Machine.ofSource (path : Path) (s : Yaml.Source) : Except Problem Machine :=
  match Yaml.read s with
  | .error (.malformed problem) =>
    .error (.failed (.configuration ("Invalid YAML in configuration file: " ++ path.text) none
      [problem ++ "\n  in " ++ Text.quoted path.text]))
  | .error (.scalar bad) => .error (.unforeseen (.scalar bad))
  | .error .undecodable => .error (.unforeseen .undecodable)
  | .ok v =>
    match Machine.ofDocument v with
    | .ok m => .ok m
    | .error f => .error (.failed f)

/-! ## Files -/

/-- Whether a settings file exists. -/
def fileExists (t : Files.Tree) (path : Path) : Except Problem Bool :=
  match t.contains path with
  | .ok found => .ok found
  | .error f => .error (.unforeseen (.file f))

/-- The settings of a file that has to exist. -/
def Machine.load (t : Files.Tree) (path : Path) : Except Problem Machine := do
  if !(← fileExists t path) then
    .error (.failed (.configuration ("Configuration file not found: " ++ path.text)
      (some "Create it with: fwd config init")))
  else
    match t.read path with
    | .error f =>
      if f.obstacle = .denied then
        .error (.failed (.configuration ("Cannot read configuration file: " ++ path.text)
          (some "Check file permissions or run with sudo")))
      else .error (.unforeseen (.file f))
    | .ok bytes => Machine.ofSource path (.ofBytes bytes)

/-- The settings of a file, or the defaults if it does not exist. -/
def Machine.loadOrDefault (t : Files.Tree) (path : Path) : Except Problem Machine := do
  if ← fileExists t path then Machine.load t path else .ok {}

/-! ## The environment -/

/-- The variables of the environment in their order. -/
abbrev Variables := List (String × String)

/-- The value of a variable. -/
def Variables.get? (vs : Variables) (name : String) : Option String :=
  (vs.reverse.find? (·.1 == name)).map (·.2)

/-- What the environment overrides. -/
structure Overrides where
  config : Option Path := none
  auditLog : Option Path := none
  deriving DecidableEq, Repr

/-- The environment file in the working directory. -/
def envFile : Path := .ofText ".env"

/-- The variables of the environment file, if there is one. -/
def envFileVariables (t : Files.Tree) (vs : Variables) :
    Except Unforeseen (List (String × Option String)) :=
  if t.isFile envFile then
    match t.read envFile with
    | .error f => .error (.file f)
    | .ok bytes =>
      match Files.decodeLines? bytes with
      | none => .error .undecodable
      | some s => .ok (EnvFile.read vs.get? s)
  else .ok []

/-- The path that a variable gives, by its name in any case of its letters: from the environment, or
else from the environment file. -/
def override (vs : Variables) (file : List (String × Option String)) (name : String) :
    Option Path :=
  let inEnvironment := (vs.reverse.find? fun (k, _) => Text.lower k == name).map (·.2)
  let inFile := (file.reverse.find? fun (k, _) => Text.lower k == name).bind (·.2)
  (inEnvironment <|> inFile).map Path.ofText

/-- What the environment and its file override. -/
def Overrides.read (t : Files.Tree) (vs : Variables) : Except Unforeseen Overrides := do
  let file ← envFileVariables t vs
  return { config := override vs file "fwd_config", auditLog := override vs file "fwd_audit_log" }

/-- The settings in force, and where they come from. -/
structure InForce where
  path : Path
  machine : Machine
  auditLog : Path
  deriving DecidableEq, Repr

/-- The settings in force, with the file that the command line names if it names one. -/
def InForce.load (t : Files.Tree) (vs : Variables) (named : Option Path) :
    Except Problem InForce := do
  let overrides ←
    match Overrides.read t vs with
    | .ok o => .ok o
    | .error e => .error (.unforeseen e)
  let path := (named <|> overrides.config).getD standardPath
  let machine ← Machine.loadOrDefault t path
  return { path, machine, auditLog := overrides.auditLog.getD machine.audit.logPath }

end Pinhole.Config
