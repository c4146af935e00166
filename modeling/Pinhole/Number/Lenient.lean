import Pinhole.Text.Blank

/-!
# Lenient integers

The integers that a text from outside may spell. Blanks may stand around the number and a plus sign
or zeros in front of it, single underscores between its digits, and a fraction of zeros after it.
What is left when all of this is taken away, the core, has to be a plain number: a minus sign at
most, and digits of which the first is no zero unless it is the only one.

Zeros are taken away with the underscores among them, and a minus sign may follow them: `0_-5` is
another spelling of `-5`.
-/

namespace Pinhole.Lenient

/-- Why a text spells no integer. -/
inductive Misspelling
  | unclear
  /-- More digits than an integer may have. -/
  | huge
  deriving DecidableEq, Repr

/-- The greatest number of digits in the core of an integer. -/
def maxDigits : Nat := 4300

/-- What follows the zeros and underscores after a first zero; `last` is the latest of them. A point
leaves it in place, and so does the end. -/
def afterZeros (last : Char) : List Char → Option (List Char)
  | [] => some [last]
  | c :: cs =>
    if c == '0' || c == '_' then afterZeros c cs
    else if c == '-' || c.isDigit then some (c :: cs)
    else if c == '.' then some (last :: c :: cs)
    else none

/-- A text without the zeros in front of its number. -/
def withoutZeros? : List Char → Option (List Char)
  | [] => none
  | c :: cs =>
    if c == '0' then afterZeros c cs else if c == '-' || c.isDigit then some (c :: cs) else none

/-- A text without the fraction of zeros that may end it. -/
def withoutFraction (cs : List Char) : List Char :=
  let whole := cs.takeWhile (· != '.')
  let zeros := cs.drop (whole.length + 1)
  if !zeros.isEmpty && zeros.all (· == '0') then whole else cs

/-- Whether two underscores stand side by side. -/
def hasDoubleMark : List Char → Bool
  | c :: d :: cs => (c == '_' && d == '_') || hasDoubleMark (d :: cs)
  | _ => false

/-- A text without the underscores that group its digits. -/
def ungrouped? (cs : List Char) : Option (List Char) :=
  if cs.head? == some '_' || cs.getLast? == some '_' || hasDoubleMark cs then none
  else some (cs.filter (· != '_'))

/-- The core of the spelling of an integer. -/
def core? (cs : List Char) : Option (List Char) := do
  let cs := Text.trimmed Text.isNumberBlank cs
  let cs ← withoutZeros? (match cs with | '+' :: '-' :: _ => [] | '+' :: r => r | r => r)
  ungrouped? (withoutFraction cs)

/-- The number of a core without its sign. -/
def magnitude (cs : List Char) : Except Misspelling Nat :=
  match cs with
  | ['0'] => .ok 0
  | '0' :: _ => .error .unclear
  | cs =>
    let digits := cs.takeWhile Char.isDigit
    if digits.isEmpty then .error .unclear
    else if maxDigits < digits.length then .error .huge
    else if digits.length < cs.length then .error .unclear
    else .ok (Nat.ofDigitChars 10 digits 0)

/-- The integer that a text spells. -/
def integer (s : String) : Except Misspelling Int :=
  match core? s.toList with
  | none => .error .unclear
  | some ('-' :: cs) => (magnitude cs).map fun n => -n
  | some cs => (magnitude cs).map fun n => n

example : ["12", "+1_000", " 007 ", "5.00", "0_-5", "0__13", "-_5", "0.0"].map
    (fun s => (integer s).toOption) =
    [some 12, some 1000, some 7, some 5, some (-5), some 13, some (-5), some 0] := by
  decide +kernel

example : ["", "+-5", "-05", "5.", "1__0", "1_", "0_", "1_.0", "1.5", "0x1"].map
    (fun s => (integer s).toOption) = List.replicate 10 none := by decide +kernel

end Pinhole.Lenient
