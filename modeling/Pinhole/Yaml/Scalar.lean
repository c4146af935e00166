import Pinhole.Text.Hex
import Pinhole.Yaml.Cursor

/-!
# Reading scalars

The three ways of writing a scalar. A plain scalar ends where another token could begin; a quoted
scalar ends with its quote; a block scalar ends with its indentation. In all of them a line break
between two lines of text is folded into a space, except where a block scalar is literal.

Every loop is bounded by the number of characters that are left.
-/

namespace Pinhole.Yaml

/-! ## Quoted scalars -/

/-- The character of an escape of one letter. -/
def shortEscape? (c : Char) : Option Char :=
  match c with
  | '0' => some (Char.ofNat 0x00)
  | 'a' => some (Char.ofNat 0x07)
  | 'b' => some (Char.ofNat 0x08)
  | 't' | '\t' => some '\t'
  | 'n' => some '\n'
  | 'v' => some (Char.ofNat 0x0B)
  | 'f' => some (Char.ofNat 0x0C)
  | 'r' => some '\r'
  | 'e' => some (Char.ofNat 0x1B)
  | ' ' => some ' '
  | '"' => some '"'
  | '\\' => some '\\'
  | '/' => some '/'
  | 'N' => some (Char.ofNat 0x85)
  | '_' => some (Char.ofNat 0xA0)
  | 'L' => some (Char.ofNat 0x2028)
  | 'P' => some (Char.ofNat 0x2029)
  | _ => none

/-- The number of digits of a numeric escape. -/
def escapeWidth? (c : Char) : Option Nat :=
  match c with
  | 'x' => some 2
  | 'u' => some 4
  | 'U' => some 8
  | _ => none

/-- The code point of a numeric escape whose digits stand at the cursor. It may be a surrogate. -/
def numericEscape (width : Nat) (c : Cursor) : Except Fault (Nat × Cursor) :=
  let digits := c.rest.take width
  if digits.length < width then malformed "expected hexadecimal digits in an escape"
  else
    match Text.hexNumber? 0 digits with
    | none => malformed "expected hexadecimal digits in an escape"
    | some n => if n ≤ 0x10FFFF then .ok (n, c.skip width) else .error (.scalar (.codePoint n))

/-- The line breaks at the cursor inside a quoted scalar, with the blanks that begin each line
dropped. No document may begin or end there. -/
def quotedBreaks (fuel : Nat) (acc : List Char) (c : Cursor) :
    Except Fault (List Char × Cursor) :=
  match fuel with
  | 0 => .ok (acc, c)
  | fuel + 1 =>
    if c.atSeparator then malformed "found unexpected document separator"
    else
      let c := (c.takeRun fun x => x == ' ' || x == '\t').2
      if isBreak c.peek then
        let (b, c) := c.lineBreak
        quotedBreaks fuel (acc ++ b) c
      else .ok (acc, c)

/-- What some line breaks are folded into. -/
def folded (first breaks : List Char) : List Char :=
  if first != ['\n'] then first ++ breaks else if breaks.isEmpty then [' '] else breaks

/-- The blanks at the cursor inside a quoted scalar, folded when they hold a line break. -/
def quotedBlanks (c : Cursor) : Except Fault (List Char × Cursor) :=
  let (blanks, c) := c.takeRun fun x => x == ' ' || x == '\t'
  if c.rest.isEmpty then .error .unclosed
  else if isBreak c.peek then do
    let (first, c) := c.lineBreak
    let (breaks, c) ← quotedBreaks (c.rest.length + 1) [] c
    return (folded first breaks, c)
  else .ok (blanks, c)

/-- Characters that a quoted scalar does not hold as themselves. -/
def isQuotedSpecial (c : Char) : Bool :=
  c == '\'' || c == '"' || c == '\\' || isBlankOrEnd c

/-- The code points of some characters. -/
def points (cs : List Char) : List Nat := cs.map Char.toNat

/-- An escape at the cursor, after its backslash. -/
def quotedEscape (c : Cursor) : Except Fault (List Nat × Cursor) :=
  match shortEscape? c.peek, escapeWidth? c.peek with
  | some x, _ => .ok ([x.toNat], c.next)
  | none, some width => (numericEscape width c.next).map fun (n, c) => ([n], c)
  | none, none =>
    if isBreak c.peek then
      (quotedBreaks (c.rest.length + 1) [] c.lineBreak.2).map fun (cs, c) => (points cs, c)
    else malformed "found unknown escape character"

/-- The code points of a quoted scalar at the cursor, up to the next blank or to the closing quote,
with those read so far in front. -/
def quotedText (double : Bool) (fuel : Nat) (acc : List Nat) (c : Cursor) :
    Except Fault (List Nat × Cursor) :=
  match fuel with
  | 0 => .ok (acc, c)
  | fuel + 1 =>
    let (cs, c) := c.takeRun (!isQuotedSpecial ·)
    let acc := acc ++ points cs
    let x := c.peek
    if !double && x == '\'' && c.peekAt 1 == '\'' then
      quotedText double fuel (acc ++ ['\''.toNat]) (c.skip 2)
    else if (double && x == '\'') || (!double && (x == '"' || x == '\\')) then
      quotedText double fuel (acc ++ [x.toNat]) c.next
    else if double && x == '\\' then do
      let (ps, c) ← quotedEscape c.next
      quotedText double fuel (acc ++ ps) c
    else .ok (acc, c)

/-- The rest of a quoted scalar: text and blanks in turn until the closing quote. -/
def quotedRest (double : Bool) (fuel : Nat) (acc : List Nat) (c : Cursor) :
    Except Fault (List Nat × Cursor) :=
  match fuel with
  | 0 => .error .unclosed
  | fuel + 1 =>
    if c.peek == (if double then '"' else '\'') then .ok (acc, c.next)
    else do
      let (blanks, c) ← quotedBlanks c
      let (text, c) ← quotedText double (c.rest.length + 1) [] c
      quotedRest double fuel (acc ++ points blanks ++ text) c

/-- The quoted scalar at the cursor. -/
def quotedScalar (double : Bool) (c : Cursor) : Except Fault (Text.Spelling × Cursor) := do
  let c := c.next
  let (text, c) ← quotedText double (c.rest.length + 1) [] c
  let (all, c) ← quotedRest double (c.rest.length + 1) text c
  return (.ofPoints all, c)

/-! ## Plain scalars -/

/-- Whether a character ends a run of plain text. `following` is the character after it; inside
brackets the marks of flow collections end the run too. -/
def endsPlain (flow : Bool) (x following : Char) : Bool :=
  isBlankOrEnd x ||
    (x == ':' && (isBlankOrEnd following || (flow && ",[]\x7b\x7d".toList.contains following))) ||
    (flow && ",?[]\x7b\x7d".toList.contains x)

/-- The run of plain text at the front of some characters. -/
def plainRun (flow : Bool) : List Char → List Char
  | [] => []
  | x :: rest => if endsPlain flow x (rest.headD endMark) then [] else x :: plainRun flow rest

/-- The breaks and spaces after the first break inside a plain scalar; `none` where a document
begins or ends. -/
def plainBreaks (fuel : Nat) (acc : List Char) (c : Cursor) : Option (List Char) × Cursor :=
  match fuel with
  | 0 => (some acc, c)
  | fuel + 1 =>
    if c.peek == ' ' then plainBreaks fuel acc c.next
    else if isBreak c.peek then
      let (b, c) := c.lineBreak
      if c.atSeparator then (none, c) else plainBreaks fuel (acc ++ b) c
    else (some acc, c)

/-- What stands between two runs of a plain scalar: the folded blanks, and whether a line was left.
Nothing stands there when the scalar ends. -/
def plainBlanks (c : Cursor) : List Char × Bool × Cursor :=
  let (spaces, c) := c.takeRun (· == ' ')
  if isBreak c.peek then
    let (first, c) := c.lineBreak
    if c.atSeparator then ([], true, c)
    else
      match plainBreaks (c.rest.length + 1) [] c with
      | (none, c) => ([], true, c)
      | (some breaks, c) => (folded first breaks, true, c)
  else (spaces, false, c)

/-- A plain scalar that has been read: its content, and whether the place after it is the first of
a line, where a key may begin. -/
structure PlainScalar where
  content : List Char
  newLine : Bool

/-- The rest of a plain scalar, after the blanks that stand before it. -/
def plainRest (flow : Bool) (indent : Nat) (fuel : Nat) (acc blanks : List Char) (newLine : Bool)
    (c : Cursor) : PlainScalar × Cursor :=
  match fuel with
  | 0 => (⟨acc, newLine⟩, c)
  | fuel + 1 =>
    let run := if c.peek == '#' then [] else plainRun flow c.rest
    if run.isEmpty then (⟨acc, newLine⟩, c)
    else
      let acc := acc ++ blanks ++ run
      let (blanks, newLine, c) := plainBlanks (c.skip run.length)
      if blanks.isEmpty || c.peek == '#' || (!flow && c.column < indent) then (⟨acc, newLine⟩, c)
      else plainRest flow indent fuel acc blanks newLine c

/-- The plain scalar at the cursor. `indent` is the least column of its further lines. -/
def plainScalar (flow : Bool) (indent : Nat) (c : Cursor) : PlainScalar × Cursor :=
  plainRest flow indent (c.rest.length + 1) [] [] false c

/-! ## Block scalars -/

/-- What becomes of the line breaks at the end of a block scalar. -/
inductive Chomping
  | strip
  | clip
  | keep
  deriving DecidableEq, Repr

/-- The chomping that a character asks for. -/
def chomping? (c : Char) : Option Chomping :=
  if c == '+' then some .keep else if c == '-' then some .strip else none

/-- The indentation that a digit at the cursor asks for, and the place after it. -/
def indentation (c : Cursor) : Except Fault (Option Nat × Cursor) :=
  if c.peek == '0' then malformed "expected indentation indicator in the range 1-9, but found 0"
  else if c.peek.isDigit then .ok (some (c.peek.toNat - '0'.toNat), c.next)
  else .ok (none, c)

/-- The header of a block scalar: chomping and indentation, in either order. -/
def blockHeader (c : Cursor) : Except Fault ((Chomping × Option Nat) × Cursor) := do
  let (header, c) ←
    match chomping? c.peek with
    | some chomping => do
      let (increment, c) ← indentation c.next
      pure ((chomping, increment), c)
    | none => do
      let (increment, c) ← indentation c
      match increment, chomping? c.peek with
      | some _, some chomping => pure ((chomping, increment), c.next)
      | _, _ => pure ((Chomping.clip, increment), c)
  if isSpaceOrEnd c.peek then return (header, c)
  else malformed "expected chomping or indentation indicators"

/-- The empty lines in front of a block scalar, and the greatest column that their spaces reach. -/
def blockLead (fuel : Nat) (acc : List Char) (deepest : Nat) (c : Cursor) :
    List Char × Nat × Cursor :=
  match fuel with
  | 0 => (acc, deepest, c)
  | fuel + 1 =>
    if c.peek == ' ' then
      let c := c.next
      blockLead fuel acc (max deepest c.column) c
    else if isBreak c.peek then
      let (b, c) := c.lineBreak
      blockLead fuel (acc ++ b) deepest c
    else (acc, deepest, c)

/-- The place after the spaces of an indentation. -/
def skipIndent (indent : Nat) (fuel : Nat) (c : Cursor) : Cursor :=
  match fuel with
  | 0 => c
  | fuel + 1 =>
    if c.column < indent && c.peek == ' ' then skipIndent indent fuel c.next else c

/-- The empty lines inside a block scalar, and the place where the next line begins. -/
def blockBreaks (indent : Nat) (fuel : Nat) (acc : List Char) (c : Cursor) : List Char × Cursor :=
  let c := skipIndent indent (c.rest.length + 1) c
  match fuel with
  | 0 => (acc, c)
  | fuel + 1 =>
    if isBreak c.peek then
      let (b, c) := c.lineBreak
      blockBreaks indent fuel (acc ++ b) c
    else (acc, c)

/-- Whether a line of a block scalar begins at the cursor. -/
def atBlockLine (indent : Nat) (c : Cursor) : Bool := c.column == indent && !c.rest.isEmpty

/-- The lines of a block scalar, and the line breaks that follow the last of them: its own and the
empty lines. -/
def blockLines (fold : Bool) (indent : Nat) (fuel : Nat) (acc breaks : List Char) (c : Cursor) :
    List Char × List Char × List Char × Cursor :=
  match fuel with
  | 0 => (acc, [], breaks, c)
  | fuel + 1 =>
    let text := !(c.peek == ' ' || c.peek == '\t')
    let (line, c) := c.takeRun (!isBreakOrEnd ·)
    let acc := acc ++ breaks ++ line
    let (lineEnd, c) := c.lineBreak
    let (breaks, c) := blockBreaks indent (c.rest.length + 1) [] c
    if atBlockLine indent c then
      let joins := fold && lineEnd == ['\n'] && text && !(c.peek == ' ' || c.peek == '\t')
      let joint := if joins then (if breaks.isEmpty then [' '] else []) else lineEnd
      blockLines fold indent fuel (acc ++ joint) breaks c
    else (acc, lineEnd, breaks, c)

/-- The block scalar at the cursor. `outer` is the least column that its lines may have. -/
def blockScalar (fold : Bool) (outer : Nat) (c : Cursor) : Except Fault (String × Cursor) := do
  let ((chomping, increment), c) ← blockHeader c.next
  let c ← c.endOfLine "expected a comment or a line break"
  let least := max outer 1
  let (indent, breaks, c) :=
    match increment with
    | none =>
      let (breaks, deepest, c) := blockLead (c.rest.length + 1) [] 0 c
      (max least deepest, breaks, c)
    | some n =>
      let indent := least + n - 1
      let (breaks, c) := blockBreaks indent (c.rest.length + 1) [] c
      (indent, breaks, c)
  let (body, lineEnd, breaks, c) :=
    if atBlockLine indent c then blockLines fold indent (c.rest.length + 1) [] breaks c
    else ([], [], breaks, c)
  let tail :=
    match chomping with
    | .strip => []
    | .clip => lineEnd
    | .keep => lineEnd ++ breaks
  return (String.ofList (body ++ tail), c)

end Pinhole.Yaml
