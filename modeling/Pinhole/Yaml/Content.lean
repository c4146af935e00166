import Pinhole.Text.Base64
import Pinhole.Text.Blank
import Pinhole.Text.DecimalDigit
import Pinhole.Value
import Pinhole.Yaml.Fault
import Pinhole.Yaml.Tag

/-!
# The content of scalars

The value of a scalar that has a tag. A plain scalar whose tag was found by its spelling nearly
always has a value; a tag that is written out can claim a type for any text, and then there may be
none.
-/

namespace Pinhole.Yaml

/-- The value of a scalar, or why it has none. -/
abbrev Content (α : Type) := Except BadScalar α

/-- A text without the underscores that group its digits. -/
def ungrouped (cs : List Char) : List Char := cs.filter (· != '_')

/-- Whether a text has a minus sign in front. -/
def isNegative (cs : List Char) : Bool := cs.head? == some '-'

/-- A text with the decimal digits of every script written in ASCII. -/
def withPlainDigits (cs : List Char) : List Char :=
  cs.map fun c => ((Text.decimalValue? c).map fun d => Char.ofNat ('0'.toNat + d)).getD c

/-- What a text that spells a number comes down to: its ASCII digits and marks without the blanks
around them. -/
def numberText (cs : List Char) : List Char :=
  withPlainDigits (Text.trimmed Text.isNumberBlank cs)

/-! ## Integers -/

/-- The value of a digit in bases up to sixteen. -/
def digitIn? (base : Nat) (c : Char) : Option Nat := (Text.hexValue? c).filter (· < base)

/-- The number that digits of a base spell. -/
def digitsIn? (base : Nat) (ds : List Char) : Option Nat :=
  if ds.isEmpty then none
  else ds.foldl (fun acc c => acc.bind fun n => (digitIn? base c).map (base * n + ·)) (some 0)

/-- A text without the mark that may announce its base. -/
def withoutBaseMark (base : Nat) (cs : List Char) : List Char :=
  match base, cs with
  | 2, '0' :: 'b' :: ds | 2, '0' :: 'B' :: ds => ds
  | 8, '0' :: 'o' :: ds | 8, '0' :: 'O' :: ds => ds
  | 16, '0' :: 'x' :: ds | 16, '0' :: 'X' :: ds => ds
  | _, ds => ds

/-- The greatest number of decimal digits of an integer. -/
def maxDigits : Nat := 4300

/-- The integer that some characters of a spelling are in a base, with blanks around and a sign in
front of its digits. Too many decimal digits are refused before anything that may follow them. -/
def integerIn (whole : Text.Spelling) (base : Nat) (cs : List Char) : Content Int :=
  let body := numberText cs
  let digits := withoutBaseMark base (Tag.unsigned body)
  let run := (digits.takeWhile fun c => (digitIn? base c).isSome).length
  if base == 10 && maxDigits < run then .error (.hugeInteger run)
  else
    match digitsIn? base digits with
    | some n => .ok (if isNegative body then -n else n)
    | none => .error (.integer base (whole.part cs))

/-- The value of base-sixty digits, the highest first. -/
def sixties (parts : List Int) : Int := parts.foldl (fun n p => 60 * n + p) 0

/-- The integer of a scalar. -/
def intContent (s : Text.Spelling) : Content Int := do
  let cs := ungrouped s.text.toList
  if cs.isEmpty then throw .emptyNumber
  let body := Tag.unsigned cs
  let n ←
    match body with
    | [] => throw .emptyNumber
    | ['0'] => pure 0
    | '0' :: 'b' :: ds => integerIn s 2 ds
    | '0' :: 'x' :: ds => integerIn s 16 ds
    | '0' :: _ => integerIn s 8 body
    | _ =>
      if body.contains ':' then sixties <$> (Tag.colonParts body).mapM (integerIn s 10)
      else integerIn s 10 body
  return if isNegative cs then -n else n

/-! ## Floating-point numbers -/

/-- Digits, perhaps a point and more digits, perhaps an exponent. -/
def decimal? (negative : Bool) (cs : List Char) : Option Binary64 := do
  let whole := cs.takeWhile Char.isDigit
  let rest := cs.drop whole.length
  let (fraction, rest) :=
    match rest with
    | '.' :: ds =>
      let fraction := ds.takeWhile Char.isDigit
      (fraction, ds.drop fraction.length)
    | _ => ([], rest)
  if whole.isEmpty && fraction.isEmpty then none
  else
    let exponent : Int ←
      match rest with
      | [] => some 0
      | e :: ds =>
        if e == 'e' || e == 'E' then
          let n ← digitsIn? 10 (Tag.unsigned ds)
          some (if isNegative ds then -n else n)
        else none
    return .ofDecimal negative (Nat.ofDigitChars 10 (whole ++ fraction) 0)
      (exponent - fraction.length)

/-- The floating-point number that some characters of a spelling are, with blanks and a sign around
it. -/
def floatOf (whole : Text.Spelling) (cs : List Char) : Content Binary64 :=
  let body := numberText cs
  let negative := isNegative body
  let magnitude := Tag.unsigned body
  let word := String.ofList (magnitude.map Char.toLower)
  if word == "inf" || word == "infinity" then .ok (.infinite negative)
  else if word == "nan" then .ok .nan
  else
    match decimal? negative magnitude with
    | some x => .ok x
    | none => .error (.float (whole.part cs))

/-- The value of base-sixty digits, the lowest first, from a power of sixty on. The power of every
place has to be in the range of floating-point numbers. -/
def floatSixties (power : Int) (sum : Binary64) : List Binary64 → Content Binary64
  | [] => .ok sum
  | x :: xs =>
    let place := Binary64.ofInt power
    if place.isFinite then floatSixties (60 * power) (sum.add (x.mul place)) xs
    else .error .hugePlace

/-- The floating-point number of a scalar. -/
def floatContent (s : Text.Spelling) : Content Binary64 := do
  let cs := (Text.lower (String.ofList (ungrouped s.text.toList))).toList
  if cs.isEmpty then throw .emptyNumber
  let body := Tag.unsigned cs
  let x ←
    if body == ".inf".toList then pure (.infinite false)
    else if body == ".nan".toList then pure .nan
    else if body.contains ':' then do
      let parts ← (Tag.colonParts body).mapM (floatOf s)
      floatSixties 1 (.ofInt 0) parts.reverse
    else floatOf s body
  return if isNegative cs then x.neg else x

/-! ## Truth values and dates -/

/-- The truth value of a scalar. -/
def boolContent (s : Text.Spelling) : Content Bool :=
  let word := Text.lower s.text
  if ["yes", "true", "on"].contains word then .ok true
  else if ["no", "false", "off"].contains word then .ok false
  else .error (.bool s)

/-- Whether a year has a leap day. -/
def isLeap (year : Nat) : Bool := year % 4 == 0 && (year % 100 != 0 || year % 400 == 0)

/-- The number of days of a month. -/
def daysIn (year month : Nat) : Nat :=
  if month == 2 then (if isLeap year then 29 else 28)
  else if [4, 6, 9, 11].contains month then 30
  else 31

/-- The time by which a zone is off, in words: whole days, which may be negative, and the seconds
beyond them. -/
def Zone.distance (z : Zone) : String :=
  let seconds : Int := (z.hours * 60 + z.minutes) * 60
  let seconds := if z.negative then -seconds else seconds
  let part (name : String) (n : Int) : List String :=
    if n == 0 then [] else [name ++ "=" ++ toString n]
  let parts := part "days" (seconds / 86400) ++ part "seconds" (seconds % 86400)
  "datetime.timedelta(" ++ ", ".intercalate parts ++ ")"

/-- Checks that a zone is less than a day off. -/
def checkZone (z : Zone) : Content Unit :=
  if z.hours * 60 + z.minutes < 24 * 60 then .ok ()
  else
    .error (.calendar ("offset must be a timedelta strictly between -timedelta(hours=24) and " ++
      "timedelta(hours=24), not " ++ z.distance ++ "."))

/-- Checks that a day is in the calendar. -/
def checkDay (t : Stamp) : Content Unit :=
  if t.year == 0 then .error (.calendar "year 0 is out of range")
  else if t.month < 1 || 12 < t.month then .error (.calendar "month must be in 1..12")
  else if t.day < 1 || daysIn t.year t.month < t.day then
    .error (.calendar "day is out of range for month")
  else .ok ()

/-- Checks that a time is on the clock. -/
def checkTime (t : DayTime) : Content Unit :=
  if 23 < t.hour then .error (.calendar "hour must be in 0..23")
  else if 59 < t.minute then .error (.calendar "minute must be in 0..59")
  else if 59 < t.second then .error (.calendar "second must be in 0..59")
  else .ok ()

/-- The date of a scalar. -/
def stampContent (s : Text.Spelling) : Content ForeignKind := do
  match Stamp.ofText? (withoutFinalBreak s.text.toList) with
  | none => throw .moment
  | some stamp =>
    match stamp.time with
    | none => do
      checkDay stamp
      return .date
    | some time => do
      time.zone.forM checkZone
      checkDay stamp
      checkTime time
      return .moment

end Pinhole.Yaml
