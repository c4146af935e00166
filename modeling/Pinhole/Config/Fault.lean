/-!
# Faults of settings

What is wrong with one setting: where it stands, and the cause. A cause has a short code for
programs and a message for readers.
-/

namespace Pinhole.Config

/-- Why a setting is refused. -/
inductive Cause
  /-- The section must be a mapping that describes the named part. -/
  | notSection (part : String)
  | notText
  /-- Bytes or a torn text where a text is needed. -/
  | notUnicode
  | notBool
  | unclearBool
  | notInt
  | unclearInt
  | fractionalInt
  | infiniteInt
  | hugeInt
  | notPath
  /-- The value has the right type and breaks a rule of its setting. -/
  | broken (rule : String)
  deriving DecidableEq, Repr

/-- The code of a cause. -/
def Cause.code : Cause → String
  | .notSection _ => "model_type"
  | .notText => "string_type"
  | .notUnicode => "string_unicode"
  | .notBool => "bool_type"
  | .unclearBool => "bool_parsing"
  | .notInt => "int_type"
  | .unclearInt => "int_parsing"
  | .fractionalInt => "int_from_float"
  | .infiniteInt => "finite_number"
  | .hugeInt => "int_parsing_size"
  | .notPath => "path_type"
  | .broken _ => "value_error"

/-- The message of a cause. -/
def Cause.message : Cause → String
  | .notSection part => "Input should be a valid dictionary or instance of " ++ part
  | .notText => "Input should be a valid string"
  | .notUnicode =>
    "Input should be a valid string, unable to parse raw data as a unicode string"
  | .notBool => "Input should be a valid boolean"
  | .unclearBool => "Input should be a valid boolean, unable to interpret input"
  | .notInt => "Input should be a valid integer"
  | .unclearInt => "Input should be a valid integer, unable to parse string as an integer"
  | .fractionalInt => "Input should be a valid integer, got a number with a fractional part"
  | .infiniteInt => "Input should be a finite number"
  | .hugeInt => "Unable to parse input string as an integer, exceeded maximum size"
  | .notPath => "Input is not a valid path for <class 'pathlib.Path'>"
  | .broken rule => "Value error, " ++ rule

/-- A refused setting: the names that lead to it, outermost first, and the cause. -/
structure Fault where
  location : List String
  cause : Cause
  deriving DecidableEq, Repr

/-- The first line of a report on refused settings. -/
def Fault.summary (faults : List Fault) : String :=
  toString faults.length ++ " validation error" ++ (if faults.length = 1 then "" else "s") ++
    " for MachineConfig"

/-- A report on refused settings: the summary, and for each of them its place and its message. -/
def Fault.report (faults : List Fault) : String :=
  faults.foldl
    (fun text f => text ++ "\n" ++ ".".intercalate f.location ++ "\n  " ++ f.cause.message)
    (summary faults)

end Pinhole.Config
