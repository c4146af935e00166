import Pinhole.Console.Basic
import Pinhole.Console.Markup
import Pinhole.Text.Columns

/-!
# Pages

How a text is laid out on a console of fixed width that is no terminal. Line feeds split it; tabs
fill up to the next multiple of eight columns; a line that is too long breaks between words, and a
word longer than a whole line is cut into pieces. Blanks at the end of a line stay on it as far as
the width allows.
-/

namespace Pinhole.Page

/-- The number of columns of a console that is no terminal. -/
def width : Nat := 80

/-- The number of columns between tab stops. -/
def tabStop : Nat := 8

/-- Controls that have no place in a laid-out text. -/
def isDropped (c : Char) : Bool :=
  let n := c.toNat
  n == 7 || n == 8 || n == 11 || n == 12 || n == 13

/-- The lines of a text. -/
def splitLines : List Char → List (List Char)
  | [] => [[]]
  | c :: cs =>
    if c = '\n' then [] :: splitLines cs
    else
      match splitLines cs with
      | line :: lines => (c :: line) :: lines
      | [] => [[c]]

/-- The parts of a line between its tabs. -/
def tabParts (cs : List Char) : List (List Char) :=
  cs.foldr (fun c parts =>
    if c == '\t' then [] :: parts
    else
      match parts with
      | p :: ps => (c :: p) :: ps
      | [] => [[c]]) [[]]

/-- The parts of a line put together again, from the given column on. A space stands for the tab
after each of them, and more spaces fill up to the next tab stop. -/
def fillTabs (column : Nat) : List (List Char) → List Char
  | [] => []
  | [last] => last
  | part :: rest =>
    let part := part ++ [' ']
    let reached := column + Text.columns part
    let next := (reached + tabStop - 1) / tabStop * tabStop
    part ++ List.replicate (next - reached) ' ' ++ fillTabs next rest

/-- The first word of a line with the blanks on both sides of it, and what follows. -/
def word? (cs : List Char) : Option (List Char × List Char) :=
  let lead := cs.takeWhile Text.isBlank
  let rest := cs.drop lead.length
  let body := rest.takeWhile fun c => !Text.isBlank c
  let trail := (rest.drop body.length).takeWhile Text.isBlank
  if body.isEmpty then none
  else some (lead ++ body ++ trail, rest.drop (body.length + trail.length))

/-- The words of a line, each with the blanks around it. -/
def wordsFrom (fuel : Nat) (cs : List Char) : List (List Char) :=
  match fuel with
  | 0 => []
  | fuel + 1 =>
    match word? cs with
    | some (w, rest) => w :: wordsFrom fuel rest
    | none => []

/-- A word cut into pieces of at most the given width, after the part of a piece that takes some
columns already. -/
def chopFrom (limit column : Nat) (piece : List Char) : List Text.Grapheme → List (List Char)
  | [] => if column = 0 then [] else [piece]
  | g :: gs =>
    if limit < column + g.columns then piece :: chopFrom limit g.columns g.chars gs
    else chopFrom limit (column + g.columns) (piece ++ g.chars) gs

/-- A word cut into pieces of at most the given width. -/
def chop (limit : Nat) (word : List Char) : List (List Char) :=
  chopFrom limit 0 [] (Text.graphemes word)

/-- A layout in progress: the finished lines, last first, the line that is being filled, and the
columns that its words take. -/
structure Draft where
  done : List (List Char) := []
  current : List Char := []
  column : Nat := 0

/-- The lines of a draft. -/
def Draft.lines (d : Draft) : List (List Char) := (d.current :: d.done).reverse

/-- Ends the current line, unless nothing stands on it, and begins another. -/
def Draft.breakWith (d : Draft) (cs : List Char) : Draft :=
  { done := if d.current.isEmpty then d.done else d.current :: d.done
    current := cs
    column := Text.columns cs }

/-- Adds a word to a layout. -/
def Draft.place (limit : Nat) (d : Draft) (word : List Char) : Draft :=
  let size := Text.columns (Text.dropEndWhile Text.isBlank word)
  if d.column + size ≤ limit then
    { d with current := d.current ++ word, column := d.column + Text.columns word }
  else if limit < size then (chop limit word).foldl Draft.breakWith d
  else d.breakWith word

/-- A line without the blanks at its end that stand beyond the limit. -/
def cropBlanks (limit : Nat) (line : List Char) : List Char :=
  let kept := Text.dropEndWhile Text.isBlank line
  line.take (max kept.length limit)

/-- The graphemes of a line that fit the limit, and a space where one of them is cut through. -/
def cropGraphemes (limit column : Nat) : List Text.Grapheme → List Char
  | [] => []
  | g :: gs =>
    if limit < column + g.columns then List.replicate (limit - column) ' '
    else g.chars ++ cropGraphemes limit (column + g.columns) gs

/-- A line cut off at the limit. -/
def cropColumns (limit : Nat) (line : List Char) : List Char :=
  if Text.columns line ≤ limit then line else cropGraphemes limit 0 (Text.graphemes line)

/-- One line broken into lines that fit the limit. -/
def wrapLine (limit : Nat) (cs : List Char) : List (List Char) :=
  let cs := fillTabs 0 (tabParts cs)
  let words := wordsFrom cs.length cs
  let laid := (words.foldl (Draft.place limit) {}).lines
  let laid := if words.isEmpty then [cs] else laid
  laid.map fun line => cropColumns limit (cropBlanks limit line)

/-- A text as it is laid out, with a line feed at the end of each line. -/
def lay (limit : Nat) (s : String) : String :=
  let lines := (splitLines (s.toList.filter (!isDropped ·))).flatMap (wrapLine limit)
  String.ofList (lines.flatMap (· ++ ['\n']))

/-- The laid-out text of an item, unless its tags are misused. -/
def render (item : Item) : Except Markup.Misuse String :=
  match item with
  | .verbatim text => .ok (lay width text)
  | item => (Markup.plainText item.markup).map (lay width)

/-- An item as a console without frames and colours draws it. Tables and listings are drawn as lines
below their title, and a text whose tags cannot be read as it stands. -/
def draw (item : Item) : String :=
  match item with
  | .table title rows =>
    lay width title ++ String.join (rows.map fun (name, cell) =>
      lay width ("  " ++ name ++ ": " ++
        (Markup.plainText cell.markup).toOption.getD cell.markup))
  | .listing title text => lay width title ++ text
  | item => (render item).toOption.getD (item.markup ++ "\n")

/-- A word that fits on the current line is put there. -/
theorem place_of_fits {limit : Nat} {d : Draft} {word : List Char}
    (h : d.column + Text.columns (Text.dropEndWhile Text.isBlank word) ≤ limit) :
    (d.place limit word).lines = { d with current := d.current ++ word }.lines := by
  simp [Draft.place, Draft.lines, h]

end Pinhole.Page
