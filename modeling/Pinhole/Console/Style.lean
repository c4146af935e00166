import Pinhole.Console.Colour
import Pinhole.Text.Blank

/-!
# Styles

A style in words: effects, each of them on or off, a colour, a colour `on` which to write, and a
link. Words may come in any order and again; the last of a kind counts. Written out, a style has one
form, `text`, so two spellings of one style are told to be the same.

A text that is no style stands for itself, in small letters.
-/

namespace Pinhole

/-- The look of a text. -/
structure Style where
  /-- The effects that are turned on or off. -/
  effects : List (String × Bool) := []
  colour : Option String := none
  ground : Option String := none
  link : Option String := none

namespace Style

/-- The effects in the order in which they are written. -/
def effectNames : List String :=
  ["bold", "dim", "italic", "underline", "blink", "blink2", "reverse", "conceal", "strike",
    "underline2", "frame", "encircle", "overline"]

/-- The short names of effects, each with the name that it stands for. -/
def shortNames : List (String × String) :=
  [("b", "bold"), ("c", "conceal"), ("d", "dim"), ("i", "italic"), ("o", "overline"),
    ("r", "reverse"), ("s", "strike"), ("u", "underline"), ("uu", "underline2")]

/-- The effect that a word names. -/
def effect? (word : String) : Option String :=
  (shortNames.lookup word) <|> (if effectNames.contains word then some word else none)

/-- Turns an effect on or off. -/
def turn (s : Style) (effect : String) (on : Bool) : Style :=
  { s with effects := (effect, on) :: s.effects }

/-- Why a text is no style. -/
inductive Misuse
  | unknown
  /-- A colour with a component that is no number. -/
  | badNumber
  deriving DecidableEq, Repr

/-- The name of the colour that a word names. -/
def colourOf (word : String) : Except Misuse String :=
  match Colour.ofWord word with
  | .colour name => .ok name
  | .unknown => .error .unknown
  | .badNumber => .error .badNumber

/-- The style that some words add to another one. -/
def addWords (s : Style) : List String → Except Misuse Style
  | [] => .ok s
  | word :: rest =>
    let small := Text.lower word
    match small, rest with
    | "on", next :: rest => do addWords { s with ground := ← colourOf next } rest
    | "not", next :: rest =>
      match effect? next with
      | some a => addWords (s.turn a false) rest
      | none => .error .unknown
    | "link", next :: rest => addWords { s with link := some next } rest
    | "on", [] | "not", [] | "link", [] => .error .unknown
    | _, rest =>
      match effect? small with
      | some a => addWords (s.turn a true) rest
      | none => do addWords { s with colour := ← colourOf word } rest

/-- The words of a style. -/
def words (s : Style) : List String :=
  let effect (name : String) : List String :=
    match s.effects.lookup name with
    | some true => [name]
    | some false => ["not", name]
    | none => []
  effectNames.flatMap effect ++ s.colour.toList ++
    (s.ground.map (["on", ·])).getD [] ++ (s.link.map (["link", ·])).getD []

/-- A style written out. -/
def text (s : Style) : String :=
  if s.words.isEmpty then "none" else " ".intercalate s.words

/-- The words of a text. -/
def wordsOf (cs : List Char) : List String :=
  let parts := cs.foldr (fun c parts =>
    if Text.isBlank c then [] :: parts
    else
      match parts with
      | p :: ps => (c :: p) :: ps
      | [] => [[c]]) [[]]
  (parts.filter (!·.isEmpty)).map String.ofList

/-- The style that a text describes. -/
def read (cs : List Char) : Except Misuse Style :=
  if wordsOf cs == ["none"] then .ok {} else addWords {} (wordsOf cs)

/-- The one form of a text that may describe a style; nothing if a colour in it has a component that
is no number. -/
def normalName? (cs : List Char) : Option String :=
  match read cs with
  | .ok s => some s.text
  | .error .unknown => some (Text.lower (String.ofList (Text.trimmed Text.isBlank cs)))
  | .error .badNumber => none

example : ["red b", "B  Not i", "on blue red", "Überall", "not B"].map (normalName? ·.toList) =
    [some "bold red", some "bold not italic", some "red on blue", some "überall",
      some "not b"] := by decide +kernel

end Style

end Pinhole
