import Pinhole.Yaml.Fault

/-!
# Tokens of YAML

The tokens that a document is made of, and the classes of characters that separate them. A document
ends with an end mark that no document can hold; looking beyond the end shows it.

A document can break off: a `TokenStream` holds the tokens in front of the place, and what is wrong
there.
-/

namespace Pinhole.Yaml

/-- The mark that stands after the last character. -/
def endMark : Char := Char.ofNat 0

/-- Characters that end a line. -/
def isBreak (c : Char) : Bool :=
  c == '\n' || c == '\r' || c == Char.ofNat 0x85 || c == Char.ofNat 0x2028 || c == Char.ofNat 0x2029

/-- The end of a line or of the document. -/
def isBreakOrEnd (c : Char) : Bool := isBreak c || c == endMark

/-- A space, or the end of a line or of the document. -/
def isSpaceOrEnd (c : Char) : Bool := c == ' ' || isBreakOrEnd c

/-- A blank, or the end of a line or of the document. -/
def isBlankOrEnd (c : Char) : Bool := c == '\t' || isSpaceOrEnd c

/-- Characters of anchors and of the names of directives. -/
def isWordChar (c : Char) : Bool := c.isAlphanum || c == '-' || c == '_'

/-- Characters of tags. -/
def isUriChar (c : Char) : Bool := c.isAlphanum || "-;/?:@&=+$,_.!~*'()[]%".toList.contains c

/-- Characters that a document may hold. -/
def isDocumentChar (c : Char) : Bool :=
  let n := c.toNat
  n == 0x09 || n == 0x0A || n == 0x0D || (0x20 ≤ n && n ≤ 0x7E) || n == 0x85 ||
    (0xA0 ≤ n && n ≤ 0xD7FF) || (0xE000 ≤ n && n ≤ 0xFFFD) || 0x10000 ≤ n

/-- How a scalar is written. -/
inductive ScalarStyle
  | plain
  | single
  | double
  | literal
  | folded
  deriving DecidableEq, Repr

/-- A directive in front of a document. -/
inductive Directive
  | version (major minor : Nat)
  | tag (handle uri : String)
  | other
  deriving DecidableEq, Repr

/-- A token of a document. -/
inductive Token
  | directive (d : Directive)
  | documentStart
  | documentEnd
  | blockSequenceStart
  | blockMappingStart
  | blockEnd
  | flowSequenceStart
  | flowSequenceEnd
  | flowMappingStart
  | flowMappingEnd
  | flowEntry
  | blockEntry
  | key
  | value
  | alias (name : String)
  | anchor (name : String)
  /-- A tag by its handle, if it has one, and its suffix. -/
  | tag (handle : Option String) (suffix : String)
  | scalar (style : ScalarStyle) (content : Text.Spelling)
  | streamEnd
  deriving DecidableEq, Repr

/-- The tokens of a document in their order, and what is wrong where they break off, if they do. -/
structure TokenStream where
  tokens : List Token
  fault : Option Fault := none
  deriving DecidableEq, Repr

end Pinhole.Yaml
