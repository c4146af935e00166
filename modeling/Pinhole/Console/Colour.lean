import Pinhole.Text.DecimalDigit
import Pinhole.Text.Lower

/-!
# Colours

The words that name a colour: the names of the palette of 256, `default`, `color(n)` for the n-th of
the palette, six hexadecimal digits after a number sign, and `rgb(r,g,b)`. Capitals count as small
letters. A colour is known here by its word alone.

A component of `rgb` that is no number at all is more than an unknown word: it is a `badNumber`.
-/

namespace Pinhole.Colour

/-- The names of the palette. -/
def names : List String :=
  [
    "aquamarine1", "aquamarine3", "black", "blue", "blue1", "blue3", "blue_violet",
    "bright_black", "bright_blue", "bright_cyan", "bright_green", "bright_magenta", "bright_red",
    "bright_white", "bright_yellow", "cadet_blue", "chartreuse1", "chartreuse2", "chartreuse3",
    "chartreuse4", "cornflower_blue", "cornsilk1", "cyan", "cyan1", "cyan2", "cyan3",
    "dark_blue", "dark_cyan", "dark_goldenrod", "dark_green", "dark_khaki", "dark_magenta",
    "dark_olive_green1", "dark_olive_green2", "dark_olive_green3", "dark_orange", "dark_orange3",
    "dark_red", "dark_sea_green", "dark_sea_green1", "dark_sea_green2", "dark_sea_green3",
    "dark_sea_green4", "dark_slate_gray1", "dark_slate_gray2", "dark_slate_gray3",
    "dark_turquoise", "dark_violet", "deep_pink1", "deep_pink2", "deep_pink3", "deep_pink4",
    "deep_sky_blue1", "deep_sky_blue2", "deep_sky_blue3", "deep_sky_blue4", "dodger_blue1",
    "dodger_blue2", "dodger_blue3", "gold1", "gold3", "gray0", "gray100", "gray11", "gray15",
    "gray19", "gray23", "gray27", "gray3", "gray30", "gray35", "gray37", "gray39", "gray42",
    "gray46", "gray50", "gray53", "gray54", "gray58", "gray62", "gray63", "gray66", "gray69",
    "gray7", "gray70", "gray74", "gray78", "gray82", "gray84", "gray85", "gray89", "gray93",
    "green", "green1", "green3", "green4", "green_yellow", "grey0", "grey100", "grey11",
    "grey15", "grey19", "grey23", "grey27", "grey3", "grey30", "grey35", "grey37", "grey39",
    "grey42", "grey46", "grey50", "grey53", "grey54", "grey58", "grey62", "grey63", "grey66",
    "grey69", "grey7", "grey70", "grey74", "grey78", "grey82", "grey84", "grey85", "grey89",
    "grey93", "honeydew2", "hot_pink", "hot_pink2", "hot_pink3", "indian_red", "indian_red1",
    "khaki1", "khaki3", "light_coral", "light_cyan1", "light_cyan3", "light_goldenrod1",
    "light_goldenrod2", "light_goldenrod3", "light_green", "light_pink1", "light_pink3",
    "light_pink4", "light_salmon1", "light_salmon3", "light_sea_green", "light_sky_blue1",
    "light_sky_blue3", "light_slate_blue", "light_slate_gray", "light_slate_grey",
    "light_steel_blue", "light_steel_blue1", "light_steel_blue3", "light_yellow3", "magenta",
    "magenta1", "magenta2", "magenta3", "medium_orchid", "medium_orchid1", "medium_orchid3",
    "medium_purple", "medium_purple1", "medium_purple2", "medium_purple3", "medium_purple4",
    "medium_spring_green", "medium_turquoise", "medium_violet_red", "misty_rose1", "misty_rose3",
    "navajo_white1", "navajo_white3", "navy_blue", "orange1", "orange3", "orange4",
    "orange_red1", "orchid", "orchid1", "orchid2", "pale_green1", "pale_green3",
    "pale_turquoise1", "pale_turquoise4", "pale_violet_red1", "pink1", "pink3", "plum1", "plum2",
    "plum3", "plum4", "purple", "purple3", "purple4", "red", "red1", "red3", "rosy_brown",
    "royal_blue1", "salmon1", "sandy_brown", "sea_green1", "sea_green2", "sea_green3",
    "sky_blue1", "sky_blue2", "sky_blue3", "slate_blue1", "slate_blue3", "spring_green1",
    "spring_green2", "spring_green3", "spring_green4", "steel_blue", "steel_blue1",
    "steel_blue3", "tan", "thistle1", "thistle3", "turquoise2", "turquoise4", "violet", "wheat1",
    "wheat4", "white", "yellow", "yellow1", "yellow2", "yellow3", "yellow4"]

/-- What becomes of a word that should name a colour. -/
inductive Reading
  | colour (name : String)
  | unknown
  /-- A component that is no number. -/
  | badNumber
  deriving DecidableEq, Repr

/-- The greatest component, and the last number of the palette. -/
def greatest : Nat := 255

/-- The greatest number of digits of a component. -/
def maxDigits : Nat := 4300

/-- The number that decimal digits of any scripts spell. -/
def number (ds : List Char) : Nat :=
  ds.foldl (fun n c => 10 * n + (Text.decimalValue? c).getD 0) 0

/-- The parts of a text between commas. -/
def commaParts (cs : List Char) : List (List Char) :=
  cs.foldr (fun c parts =>
    if c == ',' then [] :: parts
    else
      match parts with
      | p :: ps => (c :: p) :: ps
      | [] => [[c]]) [[]]

/-- What stands between a word with an opening bracket and the closing bracket at the end. -/
def argument? (word : String) (cs : List Char) : Option (List Char) :=
  let opening := word.toList ++ ['(']
  if opening.isPrefixOf cs && cs.getLast? == some ')' then some ((cs.drop opening.length).dropLast)
  else none

/-- Whether an argument counts the colours of the palette. -/
def isPaletteNumber (cs : List Char) : Bool :=
  !cs.isEmpty && cs.length ≤ 3 && cs.all Char.isDigit && number cs ≤ greatest

/-- Whether a word is a number sign and six hexadecimal digits. -/
def isHex (cs : List Char) : Bool :=
  match cs with
  | '#' :: ds => ds.length == 6 && ds.all fun c => c.isDigit || ('a' ≤ c && c ≤ 'f')
  | _ => false

/-- What three components in one argument are. -/
def ofComponents (word : String) (cs : List Char) : Reading :=
  let parts := commaParts cs
  if cs.isEmpty || !cs.all (fun c => c == ',' || (Text.decimalValue? c).isSome) then .unknown
  else if parts.length != 3 then .unknown
  else if parts.any fun p => p.isEmpty || maxDigits < p.length then .badNumber
  else if parts.all fun p => number p ≤ greatest then .colour word
  else .unknown

/-- What a word is. -/
def ofWord (word : String) : Reading :=
  let word := Text.lower word
  let cs := word.toList
  if word == "default" || names.contains word || isHex cs then .colour word
  else
    match argument? "color" cs, argument? "rgb" cs with
    | some n, _ => if isPaletteNumber n then .colour word else .unknown
    | _, some components => ofComponents word components
    | _, _ => .unknown

example : ["Red", "color(256)", "#00FF7f", "rgb(1,2,3)", "rgb(1,2,300)", "rgb(1,,3)"].map ofWord =
    [.colour "red", .unknown, .colour "#00ff7f", .colour "rgb(1,2,3)", .unknown, .badNumber] := by
  decide +kernel

end Pinhole.Colour
