import Pinhole.Files.Fault
import Pinhole.Yaml.Fault

/-!
# Unforeseen events

What can go wrong without being a failure that the program reports by itself: an operation on files
that nobody expected to fail, bytes that are no text, a settings file that is well formed and holds
a scalar without a value, or a number too long to be written. Such an event ends the program.
-/

namespace Pinhole

/-- An event that ends the program. -/
inductive Unforeseen
  | file (f : Files.Fault)
  /-- A file holds bytes that are no text. -/
  | undecodable
  | scalar (bad : Yaml.BadScalar)
  /-- A number with more decimal digits than may be written. -/
  | unwritable
  deriving DecidableEq, Repr

/-- What is said about an event. -/
def Unforeseen.message : Unforeseen → String
  | .file f => f.text
  | .undecodable => "A file is not UTF-8 text"
  | .scalar bad => bad.message
  | .unwritable =>
    "Exceeds the limit (4300 digits) for integer string conversion; " ++
      "use sys.set_int_max_str_digits() to increase the limit"

end Pinhole
