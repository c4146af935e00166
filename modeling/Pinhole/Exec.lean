import Pinhole.Session
import Pinhole.Text.Blank
import Pinhole.Text.ShellWord

/-!
# Running commands

Commands are run without the privileges that they do not need: when the program runs as root, each
of them drops to an unprivileged account and keeps the named capabilities only. A dry run shows what
would be run and reports success.

`Executor.run` gives the result of a command or fails; `Executor.runStatus` turns every failure into
a status of its own and reports it on the console.
-/

namespace Pinhole

/-- How commands are run. -/
structure Executor where
  console : Console
  /-- Nothing is run; what would be run is shown. -/
  dryRun : Bool := false
  /-- The program runs as root. -/
  root : Bool := true
  /-- The account that commands drop to; none leaves them as they are. -/
  account : Option String := none
  /-- The seconds after which a command is given up; none waits for ever. -/
  timeout : Option Int := none
  /-- The tool that drops privileges. -/
  dropper : String := "setpriv"
  respond : Responder

/-- The result of a command. -/
structure CommandResult where
  command : List String
  status : Int
  output : String
  errors : String
  deriving DecidableEq, Repr

/-- Whether the command succeeded. -/
def CommandResult.isSuccess (r : CommandResult) : Bool := r.status == 0

/-- How one command is run. -/
structure RunOptions where
  /-- The capabilities to keep; none runs the command as the caller. -/
  capabilities : Option (List Capability) := none
  /-- What the command does, for readers. -/
  description : Option String := none
  /-- Whether a status other than zero is a failure. -/
  check : Bool := true
  /-- Whether the output is read. -/
  capture : Bool := true
  /-- The seconds after which the command is given up; none takes the executor's. -/
  timeout : Option Int := none

/-- The status of a command that could not be run. -/
def notRunStatus : Int := -1

/-- A set of capabilities as the dropping tool takes it: everything goes but the named ones, each
named once and in the order of the names. -/
def capabilitySet (caps : List Capability) : String :=
  ",".intercalate ("-all" :: ((Capability.all.filter (caps.contains ·)).map ("+" ++ ·.name)))

/-- The words that drop to an account and keep the given capabilities. -/
def dropWords (dropper account : String) (caps : List Capability) : List String :=
  let set := capabilitySet caps
  [dropper, "--reuid=" ++ account, "--regid=" ++ account, "--clear-groups",
    "--inh-caps=" ++ set, "--ambient-caps=" ++ set, "--bounding-set=" ++ set, "--"]

/-- The seconds of a time limit as a message shows them. -/
def timeoutText : Option Int → String
  | some n => toString n
  | none => "None"

namespace Executor

/-- The words of a command that keeps only the given capabilities. Only root can drop to another
account, so the words change for no one else. -/
def sandbox (x : Executor) (words : List String) (caps : List Capability) : List String :=
  match x.account with
  | some account => if x.root then dropWords x.dropper account caps ++ words else words
  | none => words

/-- The words of the process that runs a command. -/
def argv (x : Executor) (c : Command) (caps : Option (List Capability)) : List String :=
  match caps with
  | some caps => x.sandbox c.words caps
  | none => c.words

/-- Spawns a process, and tells how it went. -/
def spawn (x : Executor) (c : Command) (argv : List String) (timeout : Option Int)
    (capture : Bool) : Action Answer := do
  let answer := x.respond (← get).spawned argv
  modify fun s => { s with spawned := s.spawned ++ [⟨c, argv, timeout, capture, answer⟩] }
  return answer

/-- The result of a process, or the failure that it is. The command line is quoted in the failure;
`what` is what a reader is told about it. -/
def conclude (o : RunOptions) (argv : List String) (timeout : Option Int) (line what : String) :
    Answer → Except Stop CommandResult
  | .interrupted => .error .interrupted
  | .timedOut =>
    .error (.failed (.execution ("Command timed out after " ++ timeoutText timeout ++ "s: " ++ what)
      (some line)))
  | .notStarted reason =>
    .error (.failed
      (.execution ("Cannot run command: " ++ what) (some line) none none none [reason]))
  | .exited status output errors =>
    if o.check && status != 0 then
      .error (.failed (.execution ("Command failed: " ++ what) (some line) (some status)
        (if o.capture then some errors else none)))
    else
      .ok ⟨argv, status, if o.capture then output else "", if o.capture then errors else ""⟩

/-- Runs a command. -/
def run (x : Executor) (c : Command) (o : RunOptions) : Action CommandResult := do
  let described := (o.description.filter (!·.isEmpty))
  if let some text := described then
    x.console.say .step text
  let line := Text.shellLine c.words
  x.console.say .debug ("Running: " ++ line)
  if x.dryRun then
    x.console.show (.dryRun ("Run: " ++ line))
    return ⟨c.words, 0, "", ""⟩
  let argv := x.argv c o.capabilities
  let timeout := o.timeout <|> x.timeout
  let answer ← x.spawn c argv timeout o.capture
  match conclude o argv timeout line (described.getD line) answer with
  | .ok result => return result
  | .error stop => throw stop

/-- Reports a failed command: its message, and its details to those who debug. -/
def report (x : Executor) (f : Failure) : Action Int := do
  x.console.say .error f.message
  for detail in f.details do
    x.console.say .debug detail
  return notRunStatus

/-- Runs a command and gives its exit status. A command that could not be run or timed out is
reported and has the status −1; an interrupt goes through. -/
def runStatus (x : Executor) (c : Command) (caps : List Capability) : Action Int := do
  let result ← tryCatch
    (do return Except.ok (← x.run c { capabilities := some caps, check := false }))
    fun
    | .failed f => return Except.error (← x.report f)
    | stop => throw stop
  match result with
  | .error status => return status
  | .ok r =>
    if !r.isSuccess then
      let errors := Text.stripBlanks r.errors
      x.console.say .debug ("Exit code " ++ toString r.status ++ ": " ++
        (if errors.isEmpty then "no output" else errors))
    return r.status

end Executor

end Pinhole
