import Pinhole.Text.Hex
import Pinhole.Yaml.Tag
import Pinhole.Yaml.Token

/-!
# Writing scalars

A text as the scalar that reads back as the same text. It is written plain where a reader would take
it for a text and for nothing else; otherwise between single quotes, where a quote is written twice
and a line break stands for itself; and between double quotes, with escapes, if it holds anything
outside of visible ASCII or has blanks beside its line breaks.

Once a line has passed its eightieth column it is broken at the next space, and the lines that
follow are indented. Every writer works on a `Sheet`, which keeps the column.
-/

namespace Pinhole.Yaml

/-- A text that is being written. -/
structure Sheet where
  /-- What has been written, in reverse. -/
  written : List Char := []
  column : Nat := 0

namespace Sheet

/-- The column after which lines are broken. -/
def width : Nat := 80

/-- Writes some characters on the current line. -/
def put (s : Sheet) (cs : List Char) : Sheet := ⟨cs.reverse ++ s.written, s.column + cs.length⟩

/-- Ends the current line. -/
def feed (s : Sheet) : Sheet := ⟨'\n' :: s.written, 0⟩

/-- Ends some lines, the current one first. -/
def feeds (s : Sheet) : (n : Nat) → Sheet
  | 0 => s
  | n + 1 => s.feed.feeds n

/-- Indents a line on which nothing stands yet. -/
def indent (s : Sheet) (n : Nat) : Sheet := s.put (List.replicate n ' ')

/-- The text of a sheet. -/
def text (s : Sheet) : String := String.ofList s.written.reverse

end Sheet

/-! ## The style of a scalar -/

/-- Characters that mean something else at the front of a plain scalar. -/
def isLeadingIndicator (c : Char) : Bool := "#,[]\x7b\x7d&*!|>'\"%@`".toList.contains c

/-- Whether a character may stand outside of double quotes. -/
def isVisible (c : Char) : Bool := c == '\n' || (0x20 ≤ c.toNat && c.toNat ≤ 0x7E)

/-- Whether a character of one class is followed by one of another. -/
def hasPair (p q : Char → Bool) : List Char → Bool
  | c :: d :: cs => (p c && q d) || hasPair p q (d :: cs)
  | _ => false

/-- Whether the front of a text keeps it from being plain. -/
def badFront : List Char → Bool
  | [] => false
  | c :: cs =>
    isLeadingIndicator c ||
      ((c == '-' || c == '?' || c == ':') && isBlankOrEnd (cs.headD endMark))

/-- Whether something inside a text keeps it from being plain: a colon before a blank or at the end,
or a number sign after a blank. -/
def badInside (cs : List Char) : Bool :=
  hasPair (· == ':') isBlankOrEnd (cs ++ [endMark]) || hasPair isBlankOrEnd (· == '#') cs

/-- Whether a text begins like the marks between documents. -/
def likeMarker (cs : List Char) : Bool :=
  ['-', '-', '-'].isPrefixOf cs || ['.', '.', '.'].isPrefixOf cs

/-- Whether a text has a space at one of its ends. -/
def hasOuterSpace (cs : List Char) : Bool := cs.head? == some ' ' || cs.getLast? == some ' '

/-- Whether a text may be written plain, as far as its characters go. -/
def mayBePlain (cs : List Char) : Bool :=
  cs.all (fun c => isVisible c && c != '\n') && !hasOuterSpace cs &&
    !likeMarker cs && !badFront cs && !badInside cs

/-- Whether a text may be written between single quotes. -/
def mayBeSingle (cs : List Char) : Bool :=
  cs.all isVisible && !hasPair (· == ' ') (· == '\n') cs && !hasPair (· == '\n') (· == ' ') cs

/-- How a text is written: plain only if it resolves to a text. -/
def styleOf (s : String) : ScalarStyle :=
  let cs := s.toList
  if mayBePlain cs && Tag.resolve s == .str then .plain
  else if mayBeSingle cs then .single
  else .double

/-! ## Plain and single-quoted scalars -/

/-- A run of spaces, of line breaks, or of anything else. -/
inductive Run
  | spaces (n : Nat)
  | breaks (n : Nat)
  | word (cs : List Char)
  deriving DecidableEq, Repr

/-- The runs with a character in front. -/
def consRun (c : Char) (runs : List Run) : List Run :=
  if c == ' ' then
    match runs with
    | .spaces n :: rest => .spaces (n + 1) :: rest
    | _ => .spaces 1 :: runs
  else if c == '\n' then
    match runs with
    | .breaks n :: rest => .breaks (n + 1) :: rest
    | _ => .breaks 1 :: runs
  else
    match runs with
    | .word cs :: rest => .word (c :: cs) :: rest
    | _ => .word [c] :: runs

/-- The runs of a text. -/
def runs (cs : List Char) : List Run := cs.foldr consRun []

/-- A text with every single quote written twice. -/
def doubledQuotes (cs : List Char) : List Char :=
  cs.flatMap fun c => if c == '\'' then ['\'', '\''] else [c]

/-- Writes the runs of a scalar. A single space between words gives way to a line break when the
line is full; line breaks of the text are written one more than they are, because a reader folds the
first of them. -/
def putRuns (indent : Nat) (quoted : Bool) (first : Bool) (s : Sheet) : List Run → Sheet
  | [] => s
  | run :: rest =>
    let s :=
      match run with
      | .word cs => s.put (if quoted then doubledQuotes cs else cs)
      | .breaks n => (s.feeds (n + 1)).indent indent
      | .spaces n =>
        if n == 1 && !first && !rest.isEmpty && Sheet.width < s.column then s.feed.indent indent
        else s.put (List.replicate n ' ')
    putRuns indent quoted false s rest

/-! ## Double-quoted scalars -/

/-- The letter of a short escape. -/
def escapeLetter? (c : Char) : Option Char :=
  match c.toNat with
  | 0x00 => some '0'
  | 0x07 => some 'a'
  | 0x08 => some 'b'
  | 0x09 => some 't'
  | 0x0A => some 'n'
  | 0x0B => some 'v'
  | 0x0C => some 'f'
  | 0x0D => some 'r'
  | 0x1B => some 'e'
  | 0x22 => some '"'
  | 0x5C => some '\\'
  | 0x85 => some 'N'
  | 0xA0 => some '_'
  | 0x2028 => some 'L'
  | 0x2029 => some 'P'
  | _ => none

/-- The escape of a character that does not stand for itself between double quotes. -/
def escape? (c : Char) : Option (List Char) :=
  match escapeLetter? c with
  | some letter => some ['\\', letter]
  | none =>
    let n := c.toNat
    if 0x20 ≤ n ∧ n ≤ 0x7E then none
    else if n ≤ 0xFF then some ('\\' :: 'x' :: Text.hexDigits .upper 2 n)
    else if n ≤ 0xFFFF then some ('\\' :: 'u' :: Text.hexDigits .upper 4 n)
    else some ('\\' :: 'U' :: Text.hexDigits .upper 8 n)

/-- Breaks a line between double quotes: a backslash ends it, and another one begins the next line
where a space would be dropped. -/
def breakDouble (indent : Nat) (beforeSpace : Bool) (s : Sheet) : Sheet :=
  let s := ((s.put ['\\']).feed).indent indent
  if beforeSpace then s.put ['\\'] else s

/-- Writes a text between double quotes. A full line is broken before a space, and after an escape
or before the character that follows one, but neither at the first nor at the last character. -/
def putDouble (indent : Nat) (first afterEscape : Bool) (s : Sheet) : List Char → Sheet
  | [] => s
  | c :: rest =>
    let inner := !first && !rest.isEmpty
    match escape? c with
    | some cs =>
      let s := s.put cs
      let s :=
        if inner && Sheet.width + 1 < s.column then breakDouble indent (rest.head? == some ' ') s
        else s
      putDouble indent false true s rest
    | none =>
      let s :=
        if inner && (c == ' ' || afterEscape) && Sheet.width < s.column then
          breakDouble indent (c == ' ') s
        else s
      putDouble indent false false (s.put [c]) rest

/-- Writes a text as a scalar, in the style that it needs. -/
def putText (indent : Nat) (s : Sheet) (text : String) : Sheet :=
  let cs := text.toList
  match styleOf text with
  | .plain => putRuns indent false true s (runs cs)
  | .single => (putRuns indent true true (s.put ['\'']) (runs cs)).put ['\'']
  | _ => (putDouble indent true true (s.put ['"']) cs).put ['"']

end Pinhole.Yaml
