import Pinhole.Text.Blank

/-!
# Environment files

A file of variables, one `NAME=value` to a line. The word `export` may stand in front, blanks around
the equals sign, and a comment at the end. A value may be put between single or double quotes, and
then it may hold line breaks and escapes. A name without an equals sign has no value. Lines that are
none of this are skipped.

A value may refer to other variables: `${NAME}`, or `${NAME:-standard}` with a text for the case
that there is none. It sees the variables of the lines before it, and after those the environment.
-/

namespace Pinhole.Config.EnvFile

/-- A blank that does not end a line. -/
def isInline (c : Char) : Bool := Text.isBlank c && c != '\n' && c != '\r'

/-- A character that does not end a line. -/
def isInLine (c : Char) : Bool := c != '\n' && c != '\r'

/-- What follows the end of a line, if it is reached after blanks and perhaps a comment. -/
def lineEnd? (cs : List Char) : Option (List Char) :=
  let rest := cs.dropWhile isInline
  let rest := match rest with | '#' :: _ => rest.dropWhile isInLine | _ => rest
  match rest.dropWhile isInline with
  | [] => some []
  | '\r' :: '\n' :: rest => some rest
  | c :: rest => if isInLine c then none else some rest

/-- What follows the current line. -/
def nextLine (cs : List Char) : List Char := (cs.dropWhile isInLine).drop 1

/-- What follows the word `export` and its blanks. -/
def withoutExport (cs : List Char) : List Char :=
  let word := "export".toList
  if word.isPrefixOf cs then
    let rest := cs.drop word.length
    let after := rest.dropWhile isInline
    if after.length < rest.length then after else cs
  else cs

/-- A name, and what follows it; what is left of the line when there is none. -/
def name? (cs : List Char) : Except (List Char) (String × List Char) :=
  match cs with
  | '\'' :: rest =>
    let inner := rest.takeWhile (· != '\'')
    if inner.isEmpty || inner.length == rest.length then .error cs
    else .ok (String.ofList inner, rest.drop (inner.length + 1))
  | _ =>
    let word := cs.takeWhile fun c => c != '=' && c != '#' && !Text.isBlank c
    if word.isEmpty then .error cs else .ok (String.ofList word, cs.drop word.length)

/-- The text up to the closing quote, and what follows the quote. It closes at the first quote that
no backslash takes; a backslash takes the character after it, whatever that is. -/
def quotedValue? (quote : Char) : List Char → Option (List Char × List Char)
  | [] => none
  | [c] => if c = quote then some ([], []) else none
  | c :: d :: rest =>
    if c = quote then some ([], d :: rest)
    else if c = '\\' then
      (quotedValue? quote rest).map fun (v, after) => (c :: d :: v, after)
    else (quotedValue? quote (d :: rest)).map fun (v, after) => (c :: v, after)

/-- The character of an escape of one letter. -/
def escape? (double : Bool) (c : Char) : Option Char :=
  if c = '\\' ∨ c = '\'' then some c
  else if !double then none
  else
    match c with
    | '"' => some '"'
    | 'a' => some (Char.ofNat 0x07)
    | 'b' => some (Char.ofNat 0x08)
    | 'f' => some (Char.ofNat 0x0C)
    | 'n' => some '\n'
    | 'r' => some '\r'
    | 't' => some '\t'
    | 'v' => some (Char.ofNat 0x0B)
    | _ => none

/-- A quoted value with its escapes resolved. -/
def unescaped (double : Bool) : List Char → List Char
  | [] => []
  | [c] => [c]
  | c :: d :: rest =>
    if c = '\\' then
      match escape? double d with
      | some e => e :: unescaped double rest
      | none => c :: unescaped double (d :: rest)
    else c :: unescaped double (d :: rest)

/-- A value without the comment that follows it after a blank. -/
def withoutComment : List Char → List Char
  | [] => []
  | [c] => [c]
  | c :: d :: rest =>
    if Text.isBlank c && d == '#' then [] else c :: withoutComment (d :: rest)

/-- The value after an equals sign, and what follows it. Blanks may stand in front; where only they
stand between the sign and a comment, the value is empty. -/
def value? (cs : List Char) : Option (List Char × List Char) :=
  match cs.dropWhile isInline with
  | '\'' :: rest => (quotedValue? '\'' rest).map fun (v, r) => (unescaped false v, r)
  | '"' :: rest => (quotedValue? '"' rest).map fun (v, r) => (unescaped true v, r)
  | _ =>
    let line := cs.takeWhile isInLine
    some (Text.trimmed Text.isBlank (withoutComment line), cs.drop line.length)

/-- A line of the file: a variable, if it is one, and what follows the line. -/
def line (cs : List Char) : Option (String × Option (List Char)) × List Char :=
  match cs with
  | '#' :: _ => (none, nextLine cs)
  | _ =>
    match name? (withoutExport cs) with
    | .error rest => (none, nextLine rest)
    | .ok (name, rest) =>
      let rest := rest.dropWhile isInline
      match rest with
      | '=' :: rest =>
        match value? rest with
        | none => (none, nextLine rest)
        | some (v, rest) =>
          match lineEnd? rest with
          | some rest => (some (name, some v), rest)
          | none => (none, nextLine rest)
      | _ =>
        match lineEnd? rest with
        | some rest => (some (name, none), rest)
        | none => (none, nextLine rest)

/-- The variables of a file in their order, as they are written. -/
def written (fuel : Nat) (cs : List Char) : List (String × Option (List Char)) :=
  match fuel with
  | 0 => []
  | fuel + 1 =>
    match cs.dropWhile Text.isBlank with
    | [] => []
    | cs =>
      let (found, rest) := line cs
      found.toList ++ written fuel rest

/-- The name and the standard text of a reference to a variable, and what follows it. -/
def reference? : List Char → Option (List Char × List Char × List Char)
  | '$' :: '\x7b' :: cs =>
    let name := cs.takeWhile fun c => c != '\x7d' && c != ':'
    match cs.drop name.length with
    | '\x7d' :: rest => some (name, [], rest)
    | ':' :: '-' :: rest =>
      let standard := rest.takeWhile (· != '\x7d')
      match rest.drop standard.length with
      | '\x7d' :: rest => some (name, standard, rest)
      | _ => none
    | _ => none
  | _ => none

/-- A value with its references resolved by a look-up. -/
def resolve (look : String → Option String) (fuel : Nat) (cs : List Char) : List Char :=
  match fuel, cs with
  | 0, _ | _, [] => []
  | fuel + 1, c :: rest =>
    match reference? (c :: rest) with
    | some (name, standard, after) =>
      ((look (String.ofList name)).map (·.toList)).getD standard ++ resolve look fuel after
    | none => c :: resolve look fuel rest

/-- The variables with another value for a name. It takes the place of the one before it. -/
def settled (done : List (String × Option String)) (name : String) (v : Option String) :
    List (String × Option String) :=
  match done with
  | [] => [(name, v)]
  | (k, old) :: rest => if k = name then (k, v) :: rest else (k, old) :: settled rest name v

/-- The variables of a file in the order of their names, with references resolved. -/
def resolved (environment : String → Option String) (done : List (String × Option String)) :
    List (String × Option (List Char)) → List (String × Option String)
  | [] => done
  | (name, v) :: rest =>
    let look (n : String) : Option String :=
      match done.lookup n with
      | some v => some (v.getD "")
      | none => environment n
    let v := v.map fun cs => String.ofList (resolve look (cs.length + 1) cs)
    resolved environment (settled done name v) rest

/-- A name that is given a value has it, and the other names keep theirs. -/
theorem lookup_settled (done : List (String × Option String)) (name k : String)
    (v : Option String) :
    (settled done name v).lookup k = if k = name then some v else done.lookup k := by
  induction done with
  | nil =>
    by_cases h : k = name
    · simp [settled, h]
    · simp [settled, List.lookup_cons, beq_eq_false_iff_ne.2 h, h]
  | cons x rest ih =>
    obtain ⟨a, old⟩ := x
    unfold settled
    by_cases han : a = name
    · subst han
      by_cases hk : k = a
      · simp [hk]
      · simp [List.lookup_cons, beq_eq_false_iff_ne.2 hk, hk]
    · simp only [han, ↓reduceIte, List.lookup_cons]
      by_cases hk : k = a
      · subst hk; simp [han]
      · simp [beq_eq_false_iff_ne.2 hk, ih]

/-- A text without the byte order mark that may stand in front of it. -/
def withoutMark (cs : List Char) : List Char :=
  match cs with
  | c :: rest => if c = Char.ofNat 0xFEFF then rest else cs
  | [] => []

/-- The variables that the text of a file defines. -/
def read (environment : String → Option String) (s : String) : List (String × Option String) :=
  resolved environment [] (written (s.length + 1) (withoutMark s.toList))

end Pinhole.Config.EnvFile
