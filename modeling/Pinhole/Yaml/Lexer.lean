import Pinhole.Yaml.Scalar
import Pinhole.Yaml.Source

/-!
# From characters to tokens

The lexer walks over a document and writes down its tokens. Where a block collection begins and ends
is told by indentation; the tokens say it outright. A key without a mark of its own is recognised
only when the colon after it is reached: until then its place is remembered, and the colon puts a
key token there. Such a key stays on one line and within 1024 characters.

Where something is wrong, the tokens break off. Those in front of that place are kept as far as no
key token can come between them any more.
-/

namespace Pinhole.Yaml

/-- A place where a key may have begun. -/
structure KeyPlace where
  /-- The number of tokens in front of it. -/
  token : Nat
  /-- Whether only a key can stand there. -/
  required : Bool
  index : Nat
  line : Nat
  column : Nat

/-- A document that is being read. -/
structure Lexer where
  cursor : Cursor
  tokens : Array Token := #[]
  /-- The number of open brackets. -/
  flow : Nat := 0
  /-- The columns of the open block collections, the innermost first. -/
  indents : List Nat := []
  /-- Whether a key may begin at the cursor. -/
  keyAllowed : Bool := true
  /-- For each number of open brackets, the place where a key may have begun. -/
  keys : List (Nat × KeyPlace) := []

namespace Lexer

/-- The greatest length of a key without a mark. -/
def maxKeyLength : Nat := 1024

/-- The column of the innermost block collection; −1 outside of all. -/
def indent (l : Lexer) : Int :=
  match l.indents with
  | [] => -1
  | c :: _ => c

/-- The character at the cursor. -/
def peek (l : Lexer) : Char := l.cursor.peek

/-- Writes a token down. -/
def push (l : Lexer) (t : Token) : Lexer := { l with tokens := l.tokens.push t }

/-- Writes a token down and moves over its characters. -/
def pushOver (l : Lexer) (t : Token) (width : Nat) : Lexer :=
  { l.push t with cursor := l.cursor.skip width }

/-- The key place at the current number of open brackets. -/
def keyPlace? (l : Lexer) : Option KeyPlace := l.keys.lookup l.flow

/-- The key places of other numbers of open brackets. -/
def otherKeys (l : Lexer) : List (Nat × KeyPlace) := l.keys.filter (·.1 != l.flow)

/-- Gives the current key place up. -/
def dropKey (l : Lexer) : Except Fault Lexer :=
  match l.keyPlace? with
  | some k =>
    if k.required then malformed "could not find expected ':'"
    else .ok { l with keys := l.otherKeys }
  | none => .ok l

/-- Remembers that a key may begin at the cursor. -/
def saveKey (l : Lexer) : Except Fault Lexer := do
  if l.keyAllowed then
    let required := l.flow == 0 && l.indent == l.cursor.column
    let l ← l.dropKey
    let place : KeyPlace :=
      ⟨l.tokens.size, required, l.cursor.index, l.cursor.line, l.cursor.column⟩
    return { l with keys := (l.flow, place) :: l.keys }
  else return l

/-- Whether the cursor has left the reach of a key place. -/
def isStale (l : Lexer) (k : KeyPlace) : Bool :=
  k.line != l.cursor.line || maxKeyLength < l.cursor.index - k.index

/-- Gives up the key places whose reach the cursor has left. -/
def dropStale (l : Lexer) : Except Fault Lexer :=
  if l.keys.any fun (_, k) => k.required && l.isStale k then
    malformed "could not find expected ':'"
  else .ok { l with keys := l.keys.filter fun (_, k) => !l.isStale k }

/-- Closes the block collections that are indented more than a column. -/
def closeBlocks (column : Int) : List Nat → Array Token → List Nat × Array Token
  | c :: cs, ts => if column < c then closeBlocks column cs (ts.push .blockEnd) else (c :: cs, ts)
  | [], ts => ([], ts)

/-- Closes the block collections that end at a column. Brackets may stand at any column. -/
def unwind (l : Lexer) (column : Int) : Lexer :=
  if l.flow == 0 then
    let (indents, tokens) := closeBlocks column l.indents l.tokens
    { l with indents, tokens }
  else l

/-- Opens a block collection at the cursor, unless one is open at its column. -/
def openBlock (l : Lexer) (t : Token) : Lexer :=
  if l.indent < l.cursor.column then
    { l.push t with indents := l.cursor.column :: l.indents }
  else l

/-- Moves over blanks, comments and line breaks to the next token. -/
def toNextToken (fuel : Nat) (l : Lexer) : Lexer :=
  match fuel with
  | 0 => l
  | fuel + 1 =>
    let c := l.cursor.skipSpaces
    let c := if c.peek == '#' then (c.takeRun (!isBreakOrEnd ·)).2 else c
    if isBreak c.peek then
      toNextToken fuel
        { l with cursor := c.lineBreak.2, keyAllowed := l.keyAllowed || l.flow == 0 }
    else { l with cursor := c }

/-! ## Directives, anchors and tags -/

/-- A word at the cursor. -/
def word (c : Cursor) (problem : String) : Except Fault (String × Cursor) :=
  let (cs, c) := c.takeRun isWordChar
  if cs.isEmpty then malformed problem else .ok (String.ofList cs, c)

/-- The greatest number of digits of a number in a directive. -/
def maxDigits : Nat := 4300

/-- A decimal number at the cursor. -/
def number (c : Cursor) : Except Fault (Nat × Cursor) :=
  let (cs, c) := c.takeRun Char.isDigit
  if cs.isEmpty then malformed "expected a digit"
  else if maxDigits < cs.length then .error (.scalar (.hugeInteger cs.length))
  else .ok (Nat.ofDigitChars 10 cs 0, c)

/-- The bytes of some escapes of two hexadecimal digits, and the place after them. -/
def uriBytes (fuel : Nat) (acc : List UInt8) (c : Cursor) : Except Fault (List UInt8 × Cursor) :=
  match fuel with
  | 0 => .ok (acc.reverse, c)
  | fuel + 1 =>
    if c.peek == '%' then
      let digits := c.next.rest.take 2
      match Text.hexNumber? 0 digits with
      | some n =>
        if digits.length == 2 then uriBytes fuel (UInt8.ofNat n :: acc) (c.skip 3)
        else malformed "expected URI escape sequence of 2 hexadecimal numbers"
      | none => malformed "expected URI escape sequence of 2 hexadecimal numbers"
    else .ok (acc.reverse, c)

/-- The characters of a tag from the cursor on, with escapes resolved. -/
def uriRest (fuel : Nat) (acc : List Char) (c : Cursor) : Except Fault (List Char × Cursor) :=
  match fuel with
  | 0 => .ok (acc, c)
  | fuel + 1 =>
    let (cs, c) := c.takeRun fun x => isUriChar x && x != '%'
    if c.peek == '%' then do
      let (bytes, c) ← uriBytes (c.rest.length + 1) [] c
      match String.fromUTF8? (ByteArray.mk bytes.toArray) with
      | some s => uriRest fuel (acc ++ cs ++ s.toList) c
      | none => malformed "expected UTF-8 in a URI escape"
    else .ok (acc ++ cs, c)

/-- The characters of a tag at the cursor; there has to be one. -/
def uri (c : Cursor) : Except Fault (String × Cursor) := do
  if isUriChar c.peek then
    let (cs, c) ← uriRest (c.rest.length + 1) [] c
    return (String.ofList cs, c)
  else malformed "expected URI"

/-- The handle of a tag at the cursor: an exclamation mark, or two with a word between them. -/
def tagHandle (c : Cursor) : Except Fault (String × Cursor) :=
  if c.peek != '!' then malformed "expected '!'"
  else if c.peekAt 1 == ' ' then .ok ("!", c.next)
  else
    let (cs, d) := c.next.takeRun isWordChar
    if d.peek == '!' then .ok (String.ofList ('!' :: cs ++ ['!']), d.next)
    else malformed "expected '!'"

/-- The directive at the cursor. -/
def directive (c : Cursor) : Except Fault (Directive × Cursor) := do
  let (name, c) ← word c.next "expected alphabetic or numeric character"
  if !isSpaceOrEnd c.peek then
    malformed "expected alphabetic or numeric character"
  else
    let (d, c) ←
      if name == "YAML" then do
        let (major, c) ← number c.skipSpaces
        if c.peek != '.' then malformed "expected a digit or '.'"
        else
          let (minor, c) ← number c.next
          if isSpaceOrEnd c.peek then pure (Directive.version major minor, c)
          else malformed "expected a digit or ' '"
      else if name == "TAG" then do
        let (handle, c) ← tagHandle c.skipSpaces
        if c.peek != ' ' then malformed "expected ' '"
        else
          let (uri, c) ← uri c.skipSpaces
          if isSpaceOrEnd c.peek then pure (Directive.tag handle uri, c)
          else malformed "expected ' '"
      else pure (Directive.other, (c.takeRun (!isBreakOrEnd ·)).2)
    return (d, ← c.endOfLine "expected a comment or a line break")

/-- The name of the anchor or alias at the cursor, after its mark. -/
def anchorName (c : Cursor) : Except Fault (String × Cursor) := do
  let (name, c) ← word c.next "expected alphabetic or numeric character"
  if isBlankOrEnd c.peek || "?:,]\x7d%@`".toList.contains c.peek then return (name, c)
  else malformed "expected alphabetic or numeric character"

/-- Whether a tag at the cursor has a handle of its own: a second exclamation mark in its word. -/
def hasHandle (c : Cursor) : Bool := (c.next.run (!isSpaceOrEnd ·)).contains '!'

/-- The tag at the cursor. -/
def tag (c : Cursor) : Except Fault (Token × Cursor) := do
  let (t, c) ←
    if c.peekAt 1 == '<' then do
      let (suffix, c) ← uri (c.skip 2)
      if c.peek == '>' then pure (Token.tag none suffix, c.next) else malformed "expected '>'"
    else if isBlankOrEnd (c.peekAt 1) then pure (Token.tag none "!", c.next)
    else do
      let (handle, c) ← if hasHandle c then tagHandle c else pure ("!", c.next)
      let (suffix, c) ← uri c
      pure (Token.tag (some handle) suffix, c)
  if isSpaceOrEnd c.peek then return (t, c) else malformed "expected ' '"

/-! ## Tokens -/

/-- A token that stands outside of all block collections. -/
def documentToken (l : Lexer) : Except Fault Lexer := do
  let l ← (l.unwind (-1)).dropKey
  return { l with keyAllowed := false }

/-- A bracket that opens a collection. -/
def openBracket (l : Lexer) (t : Token) : Except Fault Lexer := do
  let l ← l.saveKey
  return { l.pushOver t 1 with flow := l.flow + 1, keyAllowed := true }

/-- A bracket that closes a collection. -/
def closeBracket (l : Lexer) (t : Token) : Except Fault Lexer := do
  let l ← l.dropKey
  if l.flow == 0 then malformed "found a closing bracket that closes nothing"
  else return { l.pushOver t 1 with flow := l.flow - 1, keyAllowed := false }

/-- The dash of an item, or the mark of a key: outside of brackets it may open a collection. -/
def blockMark (l : Lexer) (opening mark : Token) (keyAllowed : Bool) (problem : String) :
    Except Fault Lexer := do
  if l.flow == 0 && !l.keyAllowed then malformed problem
  else
    let l := if l.flow == 0 then l.openBlock opening else l
    let l ← l.dropKey
    return { l.pushOver mark 1 with keyAllowed }

/-- The colon after a key that had no mark: the key token goes to the place where the key began,
and so does the start of the mapping that it opens. -/
def valueOfKey (l : Lexer) (k : KeyPlace) : Lexer :=
  let opens := l.flow == 0 && l.indent < k.column
  let tokens := l.tokens.toList
  let inserted := if opens then [.blockMappingStart, .key] else [Token.key]
  { l with
    tokens := (tokens.take k.token ++ inserted ++ tokens.drop k.token).toArray
    indents := if opens then k.column :: l.indents else l.indents
    keys := l.otherKeys
    keyAllowed := false }

/-- The colon of a value. -/
def valueMark (l : Lexer) : Except Fault Lexer := do
  match l.keyPlace? with
  | some k => return (l.valueOfKey k).pushOver .value 1
  | none =>
    if l.flow == 0 && !l.keyAllowed then malformed "mapping values are not allowed here"
    else
      let l := if l.flow == 0 then l.openBlock .blockMappingStart else l
      let l ← l.dropKey
      return { l.pushOver .value 1 with keyAllowed := l.flow == 0 }

/-- A token that may be, or begin, a key. -/
def content (l : Lexer) (read : Cursor → Except Fault (Token × Cursor)) : Except Fault Lexer := do
  let l ← l.saveKey
  let (t, cursor) ← read l.cursor
  return { l.push t with cursor, keyAllowed := false }

/-- A block scalar, which is never a key. -/
def blockContent (l : Lexer) (fold : Bool) : Except Fault Lexer := do
  let l ← l.dropKey
  let (s, cursor) ← blockScalar fold (l.indent + 1).toNat l.cursor
  let style : ScalarStyle := if fold then .folded else .literal
  return { l.push (.scalar style ⟨s, false⟩) with cursor, keyAllowed := true }

/-- A plain scalar. When it ends at the beginning of a line, a key may follow. -/
def plainContent (l : Lexer) : Except Fault Lexer := do
  let l ← l.saveKey
  let (s, cursor) := plainScalar (l.flow != 0) (l.indent + 1).toNat l.cursor
  let content : Text.Spelling := ⟨String.ofList s.content, false⟩
  return { l.push (.scalar .plain content) with cursor, keyAllowed := s.newLine }

/-- Whether a plain scalar begins at the cursor. -/
def atPlain (l : Lexer) : Bool :=
  let x := l.peek
  let indicator := isBlankOrEnd x || "-?:,[]\x7b\x7d#&*!|>'\"%@`".toList.contains x
  !indicator ||
    (!isBlankOrEnd (l.cursor.peekAt 1) && (x == '-' || (l.flow == 0 && (x == '?' || x == ':'))))

/-- Reads the next token; the end of the document is the last. -/
def step (l : Lexer) : Except Fault Lexer := do
  let l ← (l.toNextToken (l.cursor.rest.length + 1)).dropStale
  let l := l.unwind l.cursor.column
  let x := l.peek
  let apart := isBlankOrEnd (l.cursor.peekAt 1)
  if l.cursor.rest.isEmpty then
    return (← l.documentToken).push .streamEnd
  else if x == '%' && l.cursor.column == 0 then
    let l ← l.documentToken
    let (d, cursor) ← directive l.cursor
    return { l.push (.directive d) with cursor }
  else if l.cursor.column == 0 && l.cursor.atMarker '-' then
    return (← l.documentToken).pushOver .documentStart 3
  else if l.cursor.column == 0 && l.cursor.atMarker '.' then
    return (← l.documentToken).pushOver .documentEnd 3
  else if x == '[' then l.openBracket .flowSequenceStart
  else if x == '{' then l.openBracket .flowMappingStart
  else if x == ']' then l.closeBracket .flowSequenceEnd
  else if x == '}' then l.closeBracket .flowMappingEnd
  else if x == ',' then
    let l ← l.dropKey
    return { l.pushOver .flowEntry 1 with keyAllowed := true }
  else if x == '-' && apart then
    l.blockMark .blockSequenceStart .blockEntry true "sequence entries are not allowed here"
  else if x == '?' && (l.flow != 0 || apart) then
    l.blockMark .blockMappingStart .key (l.flow == 0) "mapping keys are not allowed here"
  else if x == ':' && (l.flow != 0 || apart) then l.valueMark
  else if x == '*' then l.content fun c => (anchorName c).map fun (s, c) => (.alias s, c)
  else if x == '&' then l.content fun c => (anchorName c).map fun (s, c) => (.anchor s, c)
  else if x == '!' then l.content tag
  else if x == '|' && l.flow == 0 then l.blockContent false
  else if x == '>' && l.flow == 0 then l.blockContent true
  else if x == '\'' then
    l.content fun c => (quotedScalar false c).map fun (s, c) => (.scalar .single s, c)
  else if x == '"' then
    l.content fun c => (quotedScalar true c).map fun (s, c) => (.scalar .double s, c)
  else if l.atPlain then l.plainContent
  else malformed "found character that cannot start any token"

/-- The tokens that stay as they are: no colon further on can put a key token in front of them. -/
def settled (l : Lexer) : List Token :=
  let places := l.keys.filter fun (_, k) => !l.isStale k
  l.tokens.toList.take (places.foldl (fun n (_, k) => min n k.token) l.tokens.size)

/-- Whether no character of the document is left. -/
def isAtEnd (l : Lexer) : Bool := l.cursor.rest.isEmpty

/-- Reads the next token of a document that may break off with a fault. That fault is met by all
that runs on to the last character. -/
def stepTo (fault : Option Fault) (l : Lexer) : Except Fault Lexer :=
  match fault with
  | none => l.step
  | some f =>
    if (l.toNextToken (l.cursor.rest.length + 1)).isAtEnd then .error f
    else
      match l.step with
      | .ok next => if next.isAtEnd then .error f else .ok next
      | .error e => .error (if e = .unclosed then f else e)

/-- Reads tokens to the end of the document, or to the first fault. -/
def toEnd (fuel : Nat) (fault : Option Fault) (l : Lexer) : TokenStream :=
  match fuel with
  | 0 => ⟨l.settled, none⟩
  | fuel + 1 =>
    match l.stepTo fault with
    | .error f => ⟨l.settled, some f⟩
    | .ok l =>
      if l.tokens.back? == some .streamEnd then ⟨l.tokens.toList, none⟩ else toEnd fuel fault l

end Lexer

/-- The tokens of a document. A byte order mark in front of it is dropped. -/
def tokens (s : Source) : TokenStream :=
  let start : Cursor := ⟨s.chars, 0, 0, 0⟩
  let start := if start.peek == Char.ofNat 0xFEFF then start.next else start
  Lexer.toEnd (s.chars.length + 2) s.fault { cursor := start }

end Pinhole.Yaml
