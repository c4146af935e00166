import Pinhole.Console.Literal
import Pinhole.Console.Style

/-!
# Markup

Texts for the console may hold tags: an opening bracket, one of the characters `a`–`z`, `#`, `/`
and `@`, and anything but an opening bracket up to the next closing one. What stands before an
equals sign is the name of the tag, what follows it are its parameters. A name that describes a
style counts in the one form of that style. A tag that begins with a slash closes an open tag: the
last one of the same name, or the last one of all when it gives no name.

A tag whose name begins with `@` is a handler. When it is closed its parameters have to be a name
with arguments, either of which may be missing, and the arguments have to be literals.

A backslash in front of a tag makes it plain text; two backslashes stand for one. Brackets that
begin no tag are plain text. `plainText` is what is left when the tags have done their work, or the
misuse that kept them from it.
-/

namespace Pinhole.Markup

/-- A piece of a marked-up text. -/
inductive Piece
  | plain (cs : List Char)
  | tag (body : List Char)
  deriving DecidableEq, Repr

/-- Characters that may begin a tag. -/
def isTagStart (c : Char) : Bool :=
  ('a' ≤ c && c ≤ 'z') || c == '#' || c == '/' || c == '@'

/-- The body of the tag at the front of a text, and what follows the tag. -/
def tag? : List Char → Option (List Char × List Char)
  | '[' :: c :: cs =>
    let body := cs.takeWhile fun d => d != '[' && d != ']'
    match cs.drop body.length with
    | ']' :: rest => if isTagStart c then some (c :: body, rest) else none
    | _ => none
  | _ => none

/-- A tag with the backslashes in front of it: their number, the body, and what follows. -/
def escapedTag? (cs : List Char) : Option (Nat × List Char × List Char) :=
  let slashes := cs.takeWhile (· == '\\')
  (tag? (cs.drop slashes.length)).map fun (body, rest) => (slashes.length, body, rest)

/-- The pieces that a tag behind some backslashes stands for. -/
def tagPieces (slashes : Nat) (body : List Char) : List Piece :=
  let doubled := List.replicate (slashes / 2) '\\'
  (if doubled.isEmpty then [] else [.plain doubled]) ++
    [if slashes % 2 = 1 then .plain ('[' :: body ++ [']']) else .tag body]

/-- The pieces of a text, with the plain characters read so far in reverse. -/
def piecesFrom (fuel : Nat) (acc cs : List Char) : List Piece :=
  let flush := if acc.isEmpty then [] else [Piece.plain acc.reverse]
  match fuel, cs with
  | _, [] | 0, _ => flush
  | fuel + 1, c :: rest =>
    match escapedTag? (c :: rest) with
    | some (slashes, body, after) => flush ++ tagPieces slashes body ++ piecesFrom fuel [] after
    | none => piecesFrom fuel (c :: acc) rest

/-- The pieces of a text. -/
def pieces (cs : List Char) : List Piece := piecesFrom cs.length [] cs

/-- A plain piece with its escaped brackets resolved. -/
def unescaped : List Char → List Char
  | '\\' :: '[' :: cs => '[' :: unescaped cs
  | c :: cs => c :: unescaped cs
  | [] => []

/-- How tags can be misused. -/
inductive Misuse
  /-- A tag closes nothing. -/
  | unmatched
  /-- The parameters of a handler cannot be read. -/
  | badHandler
  /-- A colour has a component that is no number. -/
  | badColour
  deriving DecidableEq, Repr

/-- An open tag: its name in one form, and what follows the equals sign. -/
structure Tag where
  name : String
  parameters : Option (List Char)
  deriving DecidableEq, Repr

/-- The name of a tag in one form. -/
def tagName (cs : List Char) : Except Misuse String :=
  match Style.normalName? cs with
  | some name => .ok name
  | none => .error .badColour

/-- The tag that a body opens. -/
def Tag.ofBody (body : List Char) : Except Misuse Tag := do
  let name := body.takeWhile (· != '=')
  let parameters := (body.drop name.length).tail?
  return ⟨← tagName name, parameters⟩

/-- The style that a tag asks for, in words. -/
def Tag.text (t : Tag) : List Char :=
  t.name.toList ++ (t.parameters.map (' ' :: ·)).getD []

/-- Whether some text is a name with arguments that are literals. -/
def isHandler (cs : List Char) : Bool :=
  let cs := Text.trimmed Text.isBlank cs
  let arguments := cs.dropWhile fun c => Literal.isNameChar c || c == '.'
  if arguments.isEmpty then true
  else if arguments.head? == some '(' && arguments.getLast? == some ')' &&
      !arguments.contains '\n' then Literal.isLiteral arguments
  else Literal.isLiteral cs

/-- Whether a tag is a handler. -/
def Tag.isHandler (t : Tag) : Bool := t.name.toList.head? == some '@'

/-- What reading a text has come to: the open tags, the last one first, and the tags that ask for a
style somewhere in the text. -/
structure Progress where
  opened : List Tag := []
  styled : List Tag := []
  deriving DecidableEq, Repr

/-- Closes an open tag. -/
def Progress.close (p : Progress) (t : Tag) : Except Misuse Progress :=
  let opened := p.opened.erase t
  if !t.isHandler then .ok ⟨opened, t :: p.styled⟩
  else if t.parameters.all fun cs => cs.isEmpty || Markup.isHandler cs then .ok { p with opened }
  else .error .badHandler

/-- Lets a tag act. -/
def Progress.apply (p : Progress) (body : List Char) : Except Misuse Progress :=
  match body.takeWhile (· != '=') with
  | '/' :: closing => do
    if (Text.trimmed Text.isBlank closing).isEmpty then
      match p.opened with
      | t :: _ => p.close t
      | [] => .error .unmatched
    else
      let name ← tagName closing
      match p.opened.find? (·.name == name) with
      | some t => p.close t
      | none => .error .unmatched
  | _ => do return { p with opened := (← Tag.ofBody body) :: p.opened }

/-- Checks that the styles of all tags can be made. -/
def Progress.check (p : Progress) : Except Misuse Unit :=
  if (p.styled ++ p.opened).any fun t => Style.read t.text matches .error .badNumber then
    .error .badColour
  else .ok ()

/-- The plain text of some pieces. -/
def plainOf (p : Progress) : List Piece → Except Misuse (List Char)
  | [] => do
    p.check
    return []
  | .plain cs :: rest => do return unescaped cs ++ (← plainOf p rest)
  | .tag body :: rest => do plainOf (← p.apply body) rest

/-- The plain text of a marked-up text. -/
def plainText (s : String) : Except Misuse String := do
  return String.ofList (← plainOf {} (pieces s.toList))

/-- The misuse of tags in a text, if there is one. -/
def misuse? (s : String) : Option Misuse :=
  match plainText s with
  | .error misuse => some misuse
  | .ok _ => none

example : (plainText "[b]bold[/bold] \\[kept] [1] [A]").toOption = some "bold [kept] [1] [A]" := by
  decide +kernel

example : ["[a]x[/b]", "[@a=b c]x[/]", "[rgb(,,)]x", "[@a=b(1)]x[/]"].map misuse? =
    [some .unmatched, some .badHandler, some .badColour, none] := by decide +kernel

end Pinhole.Markup
