import Pinhole.Text.Hex
import Pinhole.Value

/-!
# Reading JSON text

A JSON text as a `Value`. Integers of any size and floating-point numbers are kept apart by their
spelling: a number with a fraction or an exponent is a floating-point number, whatever its value.
The escapes of two UTF-16 surrogates that follow each other are one character; a surrogate that
stands alone is refused, and so are control characters in a string that are not escaped and zeros in
front of a number.

Every reader takes the characters that are left and answers with a value and what is left after it.
The argument `fuel` bounds the depth of the recursion; the length of the text is always enough.
-/

namespace Pinhole.Json

/-- The blanks that may stand between the tokens of a JSON text. -/
def isSpace (c : Char) : Bool := c == ' ' || c == '\n' || c == '\r' || c == '\t'

/-- A text without the blanks in front. -/
def skip (cs : List Char) : List Char := cs.dropWhile isSpace

/-- Four hexadecimal digits and what follows them. -/
def readUnit (cs : List Char) : Option (Nat × List Char) :=
  if cs.length < 4 then none
  else (Text.hexNumber? 0 (cs.take 4)).map (·, cs.drop 4)

/-- The character of an escape that starts after `\u`. -/
def readEscapedUnit (cs : List Char) : Option (Char × List Char) := do
  let (n, rest) ← readUnit cs
  if 0xD800 ≤ n ∧ n < 0xDC00 then
    match rest with
    | '\\' :: 'u' :: more =>
      let (m, rest) ← readUnit more
      if 0xDC00 ≤ m ∧ m < 0xE000 then
        some (Char.ofNat (0x10000 + (n - 0xD800) * 0x400 + (m - 0xDC00)), rest)
      else none
    | _ => none
  else if 0xDC00 ≤ n ∧ n < 0xE000 then none
  else some (Char.ofNat n, rest)

/-- The character of a one-letter escape. -/
def shortEscape? : Char → Option Char
  | '"' => some '"'
  | '\\' => some '\\'
  | '/' => some '/'
  | 'b' => some (Char.ofNat 0x08)
  | 'f' => some (Char.ofNat 0x0C)
  | 'n' => some '\n'
  | 'r' => some '\r'
  | 't' => some '\t'
  | _ => none

/-- The characters that a string holds as escapes only. -/
def isControl (c : Char) : Bool := c.toNat < 0x20

/-- The rest of a string after its opening quote, with the characters read so far in reverse. -/
def readText (fuel : Nat) (acc cs : List Char) : Option (String × List Char) :=
  match fuel, cs with
  | _, '"' :: rest => some (String.ofList acc.reverse, rest)
  | fuel + 1, '\\' :: 'u' :: rest => do
    let (c, rest) ← readEscapedUnit rest
    readText fuel (c :: acc) rest
  | fuel + 1, '\\' :: c :: rest => do
    let c ← shortEscape? c
    readText fuel (c :: acc) rest
  | fuel + 1, c :: rest => if isControl c then none else readText fuel (c :: acc) rest
  | _, _ => none

/-- The number that a list of decimal digits spells. -/
def digitsValue (ds : List Char) : Nat := Nat.ofDigitChars 10 ds 0

/-- An exponent, when the text starts with one, and what follows it. -/
def readExponent (cs : List Char) : Option (Option Int × List Char) :=
  match cs with
  | e :: rest =>
    if e = 'e' ∨ e = 'E' then
      let (negative, rest) :=
        match rest with
        | '-' :: r => (true, r)
        | '+' :: r => (false, r)
        | r => (false, r)
      let ds := rest.takeWhile Char.isDigit
      if ds.isEmpty then none
      else
        let n : Int := digitsValue ds
        some (some (if negative then -n else n), rest.drop ds.length)
    else some (none, cs)
  | [] => some (none, [])

/-- The digits in front of a text that spell an integer. No other digit follows a zero. -/
def wholeDigits : List Char → List Char
  | '0' :: _ => ['0']
  | cs => cs.takeWhile Char.isDigit

/-- A number and what follows it. -/
def readNumber (cs : List Char) : Option (Value × List Char) := do
  let (negative, cs) :=
    match cs with
    | '-' :: r => (true, r)
    | r => (false, r)
  let whole := wholeDigits cs
  if whole.isEmpty then none
  else
    let rest := cs.drop whole.length
    let fraction :=
      match rest with
      | '.' :: r => r.takeWhile Char.isDigit
      | _ => []
    let rest := if fraction.isEmpty then rest else rest.drop (fraction.length + 1)
    let (exponent, rest) ← readExponent rest
    if fraction.isEmpty ∧ exponent = none then
      let n : Int := digitsValue whole
      some (.int (if negative then -n else n), rest)
    else
      let x := Binary64.ofDecimal negative (digitsValue (whole ++ fraction))
        (exponent.getD 0 - fraction.length)
      some (.float x, rest)

/-- What follows a keyword. -/
def afterWord (word : String) (cs : List Char) : Option (List Char) :=
  if word.toList.isPrefixOf cs then some (cs.drop word.length) else none

/-- A value that is no list, no mapping and no string. -/
def readPlain (cs : List Char) : Option (Value × List Char) :=
  ((afterWord "null" cs).map (.null, ·))
    <|> ((afterWord "true" cs).map (.bool true, ·))
    <|> ((afterWord "false" cs).map (.bool false, ·))
    <|> ((afterWord "NaN" cs).map (.float .nan, ·))
    <|> ((afterWord "Infinity" cs).map (.float (.infinite false), ·))
    <|> ((afterWord "-Infinity" cs).map (.float (.infinite true), ·))
    <|> readNumber cs

mutual

/-- A value and what follows it. -/
def readValue (fuel : Nat) (cs : List Char) : Option (Value × List Char) :=
  match fuel with
  | 0 => none
  | fuel + 1 =>
    match skip cs with
    | '"' :: rest => (readText rest.length [] rest).map fun (s, rest) => (.text s, rest)
    | '[' :: rest =>
      match skip rest with
      | ']' :: rest => some (.list [], rest)
      | rest => readItems fuel [] rest
    | '\x7b' :: rest =>
      match skip rest with
      | '\x7d' :: rest => some (.mapping [], rest)
      | rest => readEntries fuel [] rest
    | rest => readPlain rest

/-- The items of a list from the next one on, with those read so far in reverse. -/
def readItems (fuel : Nat) (acc : List Value) (cs : List Char) : Option (Value × List Char) :=
  match fuel with
  | 0 => none
  | fuel + 1 =>
    match readValue fuel cs with
    | none => none
    | some (v, rest) =>
      match skip rest with
      | ',' :: rest => readItems fuel (v :: acc) rest
      | ']' :: rest => some (.list (v :: acc).reverse, rest)
      | _ => none

/-- The entries of a mapping from the next one on, with those read so far. -/
def readEntries (fuel : Nat) (acc : List (Value × Value)) (cs : List Char) :
    Option (Value × List Char) :=
  match fuel with
  | 0 => none
  | fuel + 1 =>
    match skip cs with
    | '"' :: rest =>
      match readText rest.length [] rest with
      | none => none
      | some (k, rest) =>
        match skip rest with
        | ':' :: rest =>
          match readValue fuel rest with
          | none => none
          | some (v, rest) =>
            let acc := Value.insertEntry acc (.text k) v
            match skip rest with
            | ',' :: rest => readEntries fuel acc rest
            | '\x7d' :: rest => some (.mapping acc, rest)
            | _ => none
        | _ => none
    | _ => none

end

/-- The value of a whole JSON text. -/
def read (s : String) : Option Value :=
  let cs := s.toList
  match readValue (cs.length + 1) cs with
  | some (v, rest) => if (skip rest).isEmpty then some v else none
  | none => none

end Pinhole.Json
