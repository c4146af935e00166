import Pinhole.CommandLine.Request
import Pinhole.Task.Hold
import Pinhole.Task.Settings
import Pinhole.Task.Steer

/-!
# The program

One call of the program: its command line is read, what it asks for is done, and the call ends with
an exit code, or with a problem that nobody handled.
-/

namespace Pinhole

/-- How a call ends. -/
inductive CallEnd
  | exit (code : Nat)
  | escaped (p : Config.Problem)
  deriving DecidableEq, Repr

namespace CallEnd

/-- The exit code of a call that the user interrupts. -/
def interruptedCode : Nat := 130

/-- The exit code of a call that ends with a problem that nobody handled. -/
def escapedCode : Nat := 1

/-- The exit code of a misused command line. -/
def misuseCode : Nat := 2

/-- How a call ends whose task ended so. -/
def ofTask : Except Halt Unit → CallEnd
  | .ok () => .exit 0
  | .error .interrupted => .exit interruptedCode
  | .error (.exit code) => .exit code
  | .error (.failed f) => .escaped (.failed f)
  | .error (.unforeseen e) => .escaped (.unforeseen e)

/-- The exit code of a call. -/
def code : CallEnd → Nat
  | .exit code => code
  | .escaped _ => escapedCode

end CallEnd

/-- The number of this release. -/
def releaseNumber : String := "1.0.0"

/-- Does what is requested. -/
def CommandLine.Request.perform (w : Surroundings) : CommandLine.Request → Task Unit
  | .hold f ports interface => Task.hold w f ports interface
  | .steer f verb users interface => Task.steer w f verb users interface
  | .showSettings f => Task.showSettings w f
  | .initSettings f force => Task.initSettings w f force
  | .checkSettings f => Task.checkSettings w f
  | .showExample => Task.showExample

/-- Does what a command line means. -/
def CommandLine.Meaning.perform (w : Surroundings) : CommandLine.Meaning → Task Unit
  | .misuse => Task.exit CallEnd.misuseCode
  | .help => return
  | .version => Console.show {} (.line ("fwd version " ++ releaseNumber))
  | .request r => r.perform w

/-- One call of the program. -/
def call (w : Surroundings) (files : Files.Tree) (words : List String) : CallEnd × TaskState :=
  let (r, s) := ((CommandLine.read files words).perform w).on { files }
  (CallEnd.ofTask r, s)

end Pinhole
