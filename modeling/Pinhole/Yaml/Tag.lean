/-!
# Tags

The type of a node is its tag. A plain scalar without a tag gets one by its spelling: `resolve` says
which. The spellings of numbers are those of YAML 1.1, with base-sixty numbers such as `1:30` and
underscores between digits; a floating-point number needs a point, and its exponent a sign.
-/

namespace Pinhole.Yaml

/-- The tags of the types that are known. Any other tag is kept by its name. -/
inductive Tag
  | null
  | bool
  | int
  | float
  | binary
  | timestamp
  | omap
  | pairs
  | set
  | str
  | seq
  | map
  | merge
  | value
  | other (name : String)
  deriving DecidableEq, Repr

namespace Tag

/-- What the names of the tags of known types begin with. -/
def coreUri : String := "tag:yaml.org,2002:"

/-- The tags of known types by the rest of their names. -/
def core : List (String × Tag) :=
  [("null", .null), ("bool", .bool), ("int", .int), ("float", .float), ("binary", .binary),
    ("timestamp", .timestamp), ("omap", .omap), ("pairs", .pairs), ("set", .set), ("str", .str),
    ("seq", .seq), ("map", .map), ("merge", .merge), ("value", .value)]

/-- The tag with the given name. -/
def ofName (name : String) : Tag :=
  match core.find? fun (rest, _) => coreUri ++ rest == name with
  | some (_, tag) => tag
  | none => .other name

/-! ## Spellings -/

/-- A text without one sign in front. -/
def unsigned : List Char → List Char
  | '+' :: cs | '-' :: cs => cs
  | cs => cs

/-- A decimal digit or an underscore. -/
def isGrouped (c : Char) : Bool := c.isDigit || c == '_'

/-- A decimal digit, then digits and underscores. -/
def isDigitGroup : List Char → Bool
  | c :: cs => c.isDigit && cs.all isGrouped
  | [] => false

/-- The parts of a text between colons. -/
def colonParts (cs : List Char) : List (List Char) :=
  cs.foldr (fun c parts =>
    if c == ':' then [] :: parts
    else
      match parts with
      | p :: ps => (c :: p) :: ps
      | [] => [[c]]) [[]]

/-- A part of a base-sixty number after the first: one digit, or two of which the first is below
six. -/
def isSixtieth : List Char → Bool
  | [c] => c.isDigit
  | [c, d] => '0' ≤ c && c ≤ '5' && d.isDigit
  | _ => false

/-- A decimal digit other than zero, then digits and underscores. -/
def isPositiveGroup (cs : List Char) : Bool := isDigitGroup cs && cs.head? != some '0'

/-- The spelling of an integer. -/
def isInt (cs : List Char) : Bool :=
  let cs := unsigned cs
  let filled (p : Char → Bool) (ds : List Char) : Bool := !ds.isEmpty && ds.all p
  match cs with
  | ['0'] => true
  | '0' :: 'b' :: ds => filled (fun c => c == '0' || c == '1' || c == '_') ds
  | '0' :: 'x' :: ds =>
    filled (fun c => c.isDigit || ('a' ≤ c && c ≤ 'f') || ('A' ≤ c && c ≤ 'F') || c == '_') ds
  | '0' :: ds => filled (fun c => ('0' ≤ c && c ≤ '7') || c == '_') ds
  | cs =>
    match colonParts cs with
    | first :: rest => isPositiveGroup first && rest.all isSixtieth
    | [] => false

/-- Nothing, or an exponent with its sign. -/
def isExponent : List Char → Bool
  | [] => true
  | e :: s :: ds =>
    (e == 'e' || e == 'E') && (s == '+' || s == '-') && !ds.isEmpty && ds.all Char.isDigit
  | _ => false

/-- Digits and underscores, then perhaps an exponent. -/
def isFraction (cs : List Char) : Bool := isExponent (cs.dropWhile isGrouped)

/-- Digits in base sixty with a fraction in the last part. -/
def isSixtiesFloat (cs : List Char) : Bool :=
  let whole := cs.takeWhile (· != '.')
  let fraction := cs.drop whole.length
  match colonParts whole, fraction with
  | first :: second :: rest, '.' :: ds =>
    isDigitGroup first && (second :: rest).all isSixtieth && ds.all isGrouped
  | _, _ => false

/-- The spelling of a floating-point number. -/
def isFloat (cs : List Char) : Bool :=
  let body := unsigned cs
  let whole := body.takeWhile isGrouped
  let pointed :=
    match body.drop whole.length with
    | '.' :: ds => isDigitGroup whole && isFraction ds
    | _ => false
  let leading :=
    match cs with
    | '.' :: d :: ds => d.isDigit && isFraction ds
    | _ => false
  pointed || leading || isSixtiesFloat body ||
    [".inf", ".Inf", ".INF"].contains (String.ofList body) ||
    [".nan", ".NaN", ".NAN"].contains (String.ofList cs)

/-- The spelling of a truth value. -/
def isBool (s : String) : Bool :=
  ["yes", "Yes", "YES", "no", "No", "NO", "true", "True", "TRUE", "false", "False", "FALSE",
    "on", "On", "ON", "off", "Off", "OFF"].contains s

/-- The spelling of nothing. -/
def isNull (s : String) : Bool := ["", "~", "null", "Null", "NULL"].contains s

end Tag

/-! ## Dates -/

/-- The zone of a time of day: the sign, the hours and the minutes by which it is off. -/
structure Zone where
  negative : Bool
  hours : Nat
  minutes : Nat
  deriving DecidableEq, Repr

/-- A time of day with the zone it may name. -/
structure DayTime where
  hour : Nat
  minute : Nat
  second : Nat
  zone : Option Zone
  deriving DecidableEq, Repr

/-- A date, perhaps with a time of day. -/
structure Stamp where
  year : Nat
  month : Nat
  day : Nat
  time : Option DayTime
  deriving DecidableEq, Repr

namespace Stamp

/-- A number of as many digits as there are, between the two bounds, and what follows it. -/
def digits? (least most : Nat) (cs : List Char) : Option (Nat × List Char) :=
  let ds := (cs.takeWhile Char.isDigit).take most
  if least ≤ ds.length then some (Nat.ofDigitChars 10 ds 0, cs.drop ds.length) else none

/-- What follows a character. -/
def after? (c : Char) : List Char → Option (List Char)
  | d :: cs => if d == c then some cs else none
  | [] => none

/-- What follows some blanks. -/
def skipBlanks (cs : List Char) : List Char := cs.dropWhile fun c => c == ' ' || c == '\t'

/-- The zone that ends a time of day: nothing, `Z`, or hours and perhaps minutes. -/
def zone? (cs : List Char) : Option (Option Zone) :=
  if cs.isEmpty then some none
  else
    match skipBlanks cs with
    | ['Z'] => some none
    | s :: rest =>
      if s == '+' || s == '-' then do
        let (hours, rest) ← digits? 1 2 rest
        if rest.isEmpty then return some ⟨s == '-', hours, 0⟩
        else
          let (minutes, rest) ← digits? 2 2 (← after? ':' rest)
          if rest.isEmpty then return some ⟨s == '-', hours, minutes⟩ else none
      else none
    | [] => none

/-- The time of day after a date, which a `T` or blanks separate from it. -/
def time? (cs : List Char) : Option DayTime := do
  let cs ←
    match cs with
    | 'T' :: rest | 't' :: rest => some rest
    | c :: rest => if c == ' ' || c == '\t' then some (skipBlanks rest) else none
    | [] => none
  let (hour, cs) ← digits? 1 2 cs
  let (minute, cs) ← digits? 2 2 (← after? ':' cs)
  let (second, cs) ← digits? 2 2 (← after? ':' cs)
  let cs :=
    match cs with
    | '.' :: rest => rest.dropWhile Char.isDigit
    | _ => cs
  return ⟨hour, minute, second, ← zone? cs⟩

/-- The date that a text writes, with months and days of one or two digits. -/
def ofText? (cs : List Char) : Option Stamp := do
  let (year, cs) ← digits? 4 4 cs
  let (month, cs) ← digits? 1 2 (← after? '-' cs)
  let (day, cs) ← digits? 1 2 (← after? '-' cs)
  if cs.isEmpty then return ⟨year, month, day, none⟩
  else return ⟨year, month, day, some (← time? cs)⟩

/-- Whether a text is the spelling of a date without a time: then months and days have two
digits. -/
def isDate (cs : List Char) : Bool := cs.length == 10 && (ofText? cs).isSome

/-- Whether a plain scalar is a date by its spelling. -/
def isSpelling (cs : List Char) : Bool :=
  match ofText? cs with
  | some stamp => stamp.time.isSome || isDate cs
  | none => false

end Stamp

/-- A text without the line feed that may end it. -/
def withoutFinalBreak (cs : List Char) : List Char :=
  if cs.getLast? == some '\n' then cs.dropLast else cs

/-- The tag of a text without a line feed at its end, by its spelling. -/
def Tag.resolveLine (s : String) : Tag :=
  let cs := s.toList
  if isNull s then .null
  else if isBool s then .bool
  else if isFloat cs then .float
  else if isInt cs then .int
  else if Stamp.isSpelling cs then .timestamp
  else if s == "<<" then .merge
  else if s == "=" then .value
  else .str

/-- The tag of a plain scalar, by its spelling. A line feed at the end is left out of account, but a
line feed alone is a text. -/
def Tag.resolve (s : String) : Tag :=
  if s == "\n" then .str else resolveLine (String.ofList (withoutFinalBreak s.toList))

example : [Tag.resolve "1:30", .resolve "08", .resolve "0x1F", .resolve "1e3", .resolve "1.0e+3",
    .resolve "2024-01-02", .resolve "y", .resolve "off"] =
    [.int, .str, .int, .str, .float, .timestamp, .str, .bool] := by decide +kernel

end Pinhole.Yaml
