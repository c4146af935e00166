import Pinhole.Text.Spelling

/-!
# Faults of YAML documents

A document is malformed when its characters, tokens or structure break the rules of the language. A
document that is well formed can still hold a scalar that claims a type and has no value of it;
those are told apart, because a reader of settings expects the first kind and not the second.
-/

namespace Pinhole.Yaml

/-- A scalar without a value of the type that it claims. -/
inductive BadScalar
  /-- No integer in the given base. -/
  | integer (base : Nat) (spelling : Text.Spelling)
  /-- More decimal digits than an integer may have. -/
  | hugeInteger (digits : Nat)
  | float (spelling : Text.Spelling)
  /-- A place of a base-sixty number beyond the range of floating-point numbers. -/
  | hugePlace
  /-- No such day, or no such time of day. -/
  | calendar (reason : String)
  | bool (spelling : Text.Spelling)
  /-- A text that has not the form of a date. -/
  | moment
  /-- A mapping in place of the text of a date. -/
  | unwrittenMoment
  /-- A number without a single character. -/
  | emptyNumber
  /-- An escape that stands for no character. -/
  | codePoint (n : Nat)
  deriving DecidableEq, Repr

/-- The greatest number of characters that are shown of the spelling of an integer. -/
def maxShown : Nat := 200

/-- Escapes from here on do not even fit a signed word of 32 bits. -/
def codePointBound : Nat := 0x80000000

/-- What is said about a scalar that has no value. -/
def BadScalar.message : BadScalar → String
  | .integer base s =>
    "invalid literal for int() with base " ++ toString base ++ ": " ++
      String.ofList (s.quoted.toList.take maxShown)
  | .hugeInteger n =>
    "Exceeds the limit (4300 digits) for integer string conversion: value has " ++ toString n ++
      " digits; use sys.set_int_max_str_digits() to increase the limit"
  | .float s => "could not convert string to float: " ++ s.quoted
  | .hugePlace => "int too large to convert to float"
  | .calendar reason => reason
  | .bool s => s.lower.quoted
  | .moment => "'NoneType' object has no attribute 'groupdict'"
  | .unwrittenMoment => "expected string or bytes-like object, got 'list'"
  | .emptyNumber => "string index out of range"
  | .codePoint n =>
    if n < codePointBound then "chr() arg not in range(0x110000)"
    else "Python int too large to convert to C int"

/-- What is wrong with a document. -/
inductive Fault
  | malformed (problem : String)
  | scalar (bad : BadScalar)
  /-- Bytes that are no text. -/
  | undecodable
  deriving DecidableEq, Repr

/-- A quoted scalar that the document ends in. -/
def Fault.unclosed : Fault := .malformed "found unexpected end of stream"

end Pinhole.Yaml
