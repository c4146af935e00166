import Pinhole.Text.Hex

/-!
# Literals

Data written out: numbers with a sign, texts and bytes between quotes, the constants `True`, `False`
and `None`, and tuples, sets and dictionaries of such data. `isLiteral` tells whether a text is data
of this kind. Names and calls are not, except for the empty set, which has no other spelling.

Only what decides this is kept of the data: whether it is a number, and of which kind, and whether
it may be an element of a set or a key. Every loop is bounded by the number of characters.
-/

namespace Pinhole.Literal

/-- What is kept of some data. -/
inductive Kind
  | real
  | imaginary
  | signedReal
  | signedImaginary
  | text
  | bytes
  /-- Anything else that may be a key. -/
  | other
  /-- A set, a dictionary, or a tuple that holds one. -/
  | unfit
  deriving DecidableEq, Repr

/-- Data at the front of a text, and what follows it. -/
abbrev Found := Option (Kind × List Char)

/-! ## Blanks -/

/-- Characters that end a line. -/
def isNewline (c : Char) : Bool := c == '\n' || c == '\r'

/-- The rest of a text after blanks and comments. Between brackets lines may end, and elsewhere
after a backslash. -/
def skip (nested : Bool) (fuel : Nat) (cs : List Char) : List Char :=
  match fuel, cs with
  | 0, _ | _, [] => cs
  | fuel + 1, c :: rest =>
    if c == ' ' || c == '\t' || c == Char.ofNat 0x0C || (nested && isNewline c) then
      skip nested fuel rest
    else if c == '#' then skip nested fuel (rest.dropWhile (!isNewline ·))
    else if c == '\\' && rest.head?.any isNewline then skip nested fuel (rest.drop 1)
    else cs

/-- The rest of a text after blanks and comments. -/
def blanks (nested : Bool) (cs : List Char) : List Char := skip nested cs.length cs

/-! ## Numbers -/

/-- Digits at the front of a text, without the single underscores between them, and what follows. -/
def digits? (p : Char → Bool) (cs : List Char) : Option (List Char × List Char) :=
  let run := cs.takeWhile fun c => p c || c == '_'
  let lone := (run.zip (run.drop 1)).all fun (c, d) => !(c == '_' && d == '_')
  if run.isEmpty || run.head? == some '_' || run.getLast? == some '_' || !lone then none
  else some (run.filter (· != '_'), cs.drop run.length)

/-- The greatest number of digits of an integer. -/
def maxDigits : Nat := 4300

/-- The kinds of digits that a letter after a zero announces. -/
def baseDigits? (letter : Char) : Option (Char → Bool) :=
  match letter with
  | 'x' | 'X' => some fun c => (Text.hexValue? c).isSome
  | 'o' | 'O' => some fun c => '0' ≤ c && c ≤ '7'
  | 'b' | 'B' => some fun c => c == '0' || c == '1'
  | _ => none

/-- Characters of names. -/
def isNameChar (c : Char) : Bool := c.isAlphanum || c == '_' || 0x80 ≤ c.toNat

/-- A number, after which no name may follow at once. -/
def apart (k : Kind) (rest : List Char) : Found :=
  if rest.head?.any isNameChar then none else some (k, rest)

/-- The rest after the exponent that may stand at the front, and whether there is one. -/
def exponent? (cs : List Char) : Option (Bool × List Char) :=
  match cs with
  | e :: rest =>
    if e == 'e' || e == 'E' then
      let unsigned := match rest with | '+' :: r | '-' :: r => r | r => r
      (digits? Char.isDigit unsigned).map fun (_, rest) => (true, rest)
    else some (false, cs)
  | [] => some (false, [])

/-- A decimal number. An integer has no zeros in front, unless it is zero. -/
def decimal? (cs : List Char) : Found := do
  let (whole, rest) ←
    if cs.head? == some '.' then some ([], cs) else digits? Char.isDigit cs
  let (pointed, fraction, rest) ←
    match rest with
    | '.' :: r =>
      if r.head?.any Char.isDigit then
        (digits? Char.isDigit r).map fun (ds, rest) => (true, ds, rest)
      else some (true, [], r)
    | r => some (false, [], r)
  if whole.isEmpty && fraction.isEmpty then none
  else
    let (scaled, rest) ← exponent? rest
    match rest with
    | 'j' :: rest | 'J' :: rest => apart .imaginary rest
    | rest =>
      let fit := whole.length ≤ maxDigits && (whole.head? != some '0' || whole.all (· == '0'))
      if pointed || scaled || fit then apart .real rest else none

/-- A number. -/
def number? (cs : List Char) : Found :=
  match cs with
  | '0' :: letter :: rest =>
    match baseDigits? letter with
    | some p =>
      let rest := match rest with | '_' :: r => r | r => r
      (digits? p rest).bind fun (_, rest) => apart .real rest
    | none => decimal? cs
  | _ => decimal? cs

/-! ## Texts -/

/-- The number of hexadecimal digits that an escape needs. -/
def escapeDigits (bytes : Bool) (c : Char) : Nat :=
  match c with
  | 'x' => 2
  | 'u' => if bytes then 0 else 4
  | 'U' => if bytes then 0 else 8
  | _ => 0

/-- Whether the characters after a backslash are an escape that can be read. -/
def isEscape (bytes : Bool) (c : Char) (rest : List Char) : Bool :=
  let n := escapeDigits bytes c
  let digits := rest.take n
  if n != 0 then digits.length == n && (Text.hexNumber? 0 digits).any (· ≤ 0x10FFFF)
  else if c == 'N' && !bytes then
    let name := (rest.drop 1).takeWhile (· != '\x7d')
    rest.head? == some '\x7b' && !name.isEmpty && name.length + 1 < rest.length
  else true

/-- What follows a text between quotes, from inside it. -/
def afterText? (raw bytes : Bool) (quote : List Char) (fuel : Nat) (cs : List Char) :
    Option (List Char) :=
  match fuel with
  | 0 => none
  | fuel + 1 =>
    if quote.isPrefixOf cs then some (cs.drop quote.length)
    else
      match cs with
      | [] => none
      | '\\' :: c :: rest =>
        if (bytes && 0x80 ≤ c.toNat) || (!raw && !isEscape bytes c rest) then none
        else afterText? raw bytes quote fuel rest
      | c :: rest =>
        if (bytes && 0x80 ≤ c.toNat) || (quote.length == 1 && isNewline c) then none
        else afterText? raw bytes quote fuel rest

/-- The letters that may stand in front of a quote. -/
def textMarks : List String := ["", "r", "u", "b", "br", "rb"]

/-- One text or bytes between quotes, one of each or three. -/
def oneText? (cs : List Char) : Found :=
  let letters := (cs.takeWhile Char.isAlpha).map Char.toLower
  let rest := cs.drop letters.length
  match rest.head? with
  | none => none
  | some q =>
    if (q != '\'' && q != '"') || !textMarks.contains (String.ofList letters) then none
    else
      let quote := if rest.take 3 == [q, q, q] then [q, q, q] else [q]
      let bytes := letters.contains 'b'
      (afterText? (letters.contains 'r') bytes quote cs.length (rest.drop quote.length)).map
        fun rest => (if bytes then .bytes else .text, rest)

/-- Texts side by side, which are one; texts and bytes do not mix. -/
def moreTexts (nested : Bool) (k : Kind) (fuel : Nat) (cs : List Char) : Found :=
  match fuel with
  | 0 => none
  | fuel + 1 =>
    match oneText? (blanks nested cs) with
    | some (next, rest) => if next = k then moreTexts nested k fuel rest else none
    | none => some (k, cs)

/-! ## Data -/

/-- What a tuple is that holds such data. -/
def tupleOf (ks : List Kind) : Kind := if ks.contains .unfit then .unfit else .other

/-- The number with a sign in front. -/
def signed? : Kind → Option Kind
  | .real => some .signedReal
  | .imaginary => some .signedImaginary
  | _ => none

/-- A constant, or the empty set, at a name. -/
def named? (nested : Bool) (cs : List Char) : Found :=
  let name := String.ofList (cs.takeWhile isNameChar)
  let rest := cs.drop name.length
  if ["True", "False", "None"].contains name then some (.other, rest)
  else if name == "set" then
    match blanks nested rest with
    | '(' :: rest =>
      match blanks true rest with
      | ')' :: rest => some (.unfit, rest)
      | _ => none
    | _ => none
  else none

mutual

/-- Data without a sign. -/
def atom? (nested : Bool) (fuel : Nat) (cs : List Char) : Found :=
  match fuel with
  | 0 => none
  | fuel + 1 =>
    match cs with
    | '(' :: rest => do
      let (ks, comma, rest) ← items? true ')' fuel [] false rest
      match ks, comma with
      | [k], false => some (k, rest.drop 1)
      | ks, _ => some (tupleOf ks, rest.drop 1)
    | '\x7b' :: rest => braced? fuel rest
    | '.' :: '.' :: '.' :: rest => some (.other, rest)
    | _ =>
      match oneText? cs with
      | some (k, rest) => moreTexts nested k cs.length rest
      | none => number? cs <|> named? nested cs

/-- One piece of data: a number with a sign or without, the sum of a real and an imaginary number,
or anything else. -/
def datum? (nested : Bool) (fuel : Nat) (cs : List Char) : Found :=
  match fuel with
  | 0 => none
  | fuel + 1 => do
    let (left, rest) ←
      match blanks nested cs with
      | '+' :: rest | '-' :: rest => do
        let (k, rest) ← atom? nested fuel (blanks nested rest)
        pure (← signed? k, rest)
      | cs => atom? nested fuel cs
    match blanks nested rest with
    | '+' :: more | '-' :: more =>
      let (right, rest) ← atom? nested fuel (blanks nested more)
      if (left = .real || left = .signedReal) && right = .imaginary then some (.other, rest)
      else none
    | rest => some (left, rest)

/-- Data between commas up to a closing bracket or the end of the text, with the kinds found so far
in reverse, and whether a comma was among them. -/
def items? (nested : Bool) (closing : Char) (fuel : Nat) (ks : List Kind) (comma : Bool)
    (cs : List Char) : Option (List Kind × Bool × List Char) :=
  match fuel with
  | 0 => none
  | fuel + 1 =>
    let cs := blanks nested cs
    if cs.head? == some closing || (!nested && (cs.isEmpty || cs.head?.any isNewline)) then
      if nested || !ks.isEmpty then some (ks.reverse, comma, cs) else none
    else do
      let (k, rest) ← datum? nested fuel cs
      match blanks nested rest with
      | ',' :: rest => items? nested closing fuel (k :: ks) true rest
      | rest =>
        let ended := !nested && (rest.isEmpty || rest.head?.any isNewline)
        if rest.head? == some closing || ended then some ((k :: ks).reverse, comma, rest) else none

/-- A set or a dictionary after its brace. -/
def braced? (fuel : Nat) (cs : List Char) : Found :=
  match fuel with
  | 0 => none
  | fuel + 1 =>
    match blanks true cs with
    | '\x7d' :: rest => some (.unfit, rest)
    | cs => do
      let (k, rest) ← datum? true fuel cs
      if k = .unfit then none
      else
        match blanks true rest with
        | ':' :: _ => (entries? fuel cs).map (Kind.unfit, ·)
        | _ =>
          let (ks, _, rest) ← items? true '\x7d' fuel [] false cs
          if ks.contains .unfit then none else some (.unfit, rest.drop 1)

/-- What follows the entries of a dictionary. -/
def entries? (fuel : Nat) (cs : List Char) : Option (List Char) :=
  match fuel with
  | 0 => none
  | fuel + 1 =>
    match blanks true cs with
    | '\x7d' :: rest => some rest
    | cs => do
      let (key, rest) ← datum? true fuel cs
      match blanks true rest with
      | ':' :: rest => do
        let (_, rest) ← datum? true fuel rest
        match blanks true rest with
        | ',' :: rest => if key = .unfit then none else entries? fuel rest
        | '\x7d' :: rest => if key = .unfit then none else some rest
        | _ => none
      | _ => none

end

/-- Whether nothing but blanks, comments and ends of lines is left. -/
def isDone (cs : List Char) : Bool := (blanks true cs).isEmpty

/-- Whether a text is data written out. -/
def isLiteral (cs : List Char) : Bool :=
  let start := cs.dropWhile fun c => c == ' ' || c == '\t'
  !cs.contains (Char.ofNat 0) &&
    (items? false (Char.ofNat 0) (8 * cs.length + 8) [] false start).any fun (_, _, rest) =>
      isDone rest

example : ["1", "(1, \"b\")", "()", "-1.5e3", "1+2j", "'a' \"b\"", "\x7b'k': (1,), 2: None\x7d",
    "set()", "b'\\x00'", "1, 2,", "0x_ff", "..."].map (isLiteral ·.toList) =
    List.replicate 12 true := by decide +kernel

example : ["", "b c", "(bar)", "--1", "012", "1_", "'a' b'b'", "\x7b(1, \x7b\x7d): 1\x7d", "'a",
    "'\\x1'", "1 2", "f(1)", "1 if 1 else 2"].map (isLiteral ·.toList) =
    List.replicate 13 false := by decide +kernel

end Pinhole.Literal
