import Pinhole.Yaml.Token

/-!
# Cursors

A place in a document: the characters from there on, and how far into the document, its lines and
the current line the place is. A cursor moves forward only.
-/

namespace Pinhole.Yaml

/-- A place in a document. -/
structure Cursor where
  rest : List Char
  index : Nat := 0
  line : Nat := 0
  column : Nat := 0
  deriving Repr

/-- A document that breaks a rule. -/
def malformed {α : Type} (problem : String) : Except Fault α := .error (.malformed problem)

namespace Cursor

/-- The character at the cursor. -/
def peek (c : Cursor) : Char := c.rest.headD endMark

/-- The character some places after the cursor. -/
def peekAt (c : Cursor) (n : Nat) : Char := (c.rest.drop n).headD endMark

/-- The place after the next character. A line feed ends a line, and so does a carriage return
that no line feed follows; a byte order mark takes no column. -/
def next (c : Cursor) : Cursor :=
  match c.rest with
  | [] => c
  | x :: rest =>
    let c := { c with rest, index := c.index + 1 }
    if (isBreak x && x != '\r') || (x == '\r' && rest.headD endMark != '\n') then
      { c with line := c.line + 1, column := 0 }
    else if x == Char.ofNat 0xFEFF then c
    else { c with column := c.column + 1 }

/-- The place after some characters. -/
def skip (c : Cursor) : (n : Nat) → Cursor
  | 0 => c
  | n + 1 => skip c.next n

/-- The characters of a class from the cursor on. -/
def run (c : Cursor) (p : Char → Bool) : List Char := c.rest.takeWhile p

/-- The characters of a class from the cursor on, and the place after them. -/
def takeRun (c : Cursor) (p : Char → Bool) : List Char × Cursor :=
  let cs := c.run p
  (cs, c.skip cs.length)

/-- The place after the spaces at the cursor. -/
def skipSpaces (c : Cursor) : Cursor := (c.takeRun (· == ' ')).2

/-- The line break at the cursor, if there is one, and the place after it. Every break but the two
separators of Unicode reads as a line feed. -/
def lineBreak (c : Cursor) : List Char × Cursor :=
  let x := c.peek
  if x == Char.ofNat 0x2028 || x == Char.ofNat 0x2029 then ([x], c.next)
  else if isBreak x then
    (['\n'], if x == '\r' && c.peekAt 1 == '\n' then c.skip 2 else c.next)
  else ([], c)

/-- Whether the three characters at the cursor are the given ones and stand alone. -/
def atMarker (c : Cursor) (mark : Char) : Bool :=
  c.rest.take 3 == [mark, mark, mark] && isBlankOrEnd (c.peekAt 3)

/-- Whether the line at the cursor starts or ends a document. -/
def atSeparator (c : Cursor) : Bool := c.atMarker '-' || c.atMarker '.'

/-- The place after the spaces and the comment that may end a line, and after the end of the line;
anything else there is a fault. -/
def endOfLine (c : Cursor) (problem : String) : Except Fault Cursor :=
  let c := c.skipSpaces
  let c := if c.peek == '#' then (c.takeRun (!isBreakOrEnd ·)).2 else c
  if isBreakOrEnd c.peek then .ok c.lineBreak.2 else malformed problem

end Cursor

end Pinhole.Yaml
