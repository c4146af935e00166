import Pinhole.Files.Content
import Pinhole.Yaml.Token

/-!
# Sources

The characters of a document, as far as they can be read. A document is read in blocks, and a block
is checked as a whole before its first character is seen: a character that no document may hold
spoils its block, and so does a byte that belongs to no text. The blocks in front of it can be read,
and what is wrong with the document in them is found first.
-/

namespace Pinhole.Yaml

/-- The characters of a document, and what is wrong where they break off, if they do. -/
structure Source where
  chars : List Char
  fault : Option Fault := none
  deriving DecidableEq, Repr

namespace Source

/-- The number of characters that are read together. -/
def blockSize : Nat := 4096

/-- The number of characters in the blocks in front of a place. The first two blocks are read
together. -/
def readBefore (place : Nat) : Nat :=
  if place < 2 * blockSize then 0 else place / blockSize * blockSize

/-- A source that breaks off in front of the block with the given place. -/
def cut (s : Source) (place : Nat) (f : Fault) : Source := ⟨s.chars.take (readBefore place), some f⟩

/-- A source that breaks off in front of the first block with a character that no document may
hold. -/
def checked (s : Source) : Source :=
  let fit := s.chars.takeWhile isDocumentChar
  if fit.length < s.chars.length then
    s.cut fit.length (.malformed "special characters are not allowed")
  else s

/-- The source that is a text. -/
def ofText (s : String) : Source := checked ⟨s.toList, none⟩

/-- The source that is a file. -/
def ofBytes (bytes : ByteArray) : Source :=
  match Files.decodeLines? bytes with
  | some s => ofText s
  | none =>
    let cs := Files.readableLines bytes
    ((⟨cs, none⟩ : Source).cut cs.length .undecodable).checked

/-- A text of characters that documents may hold is a source as a whole. -/
theorem ofText_of_all {s : String} (h : ∀ c ∈ s.toList, isDocumentChar c) :
    ofText s = ⟨s.toList, none⟩ := by
  have fit : s.toList.takeWhile isDocumentChar = s.toList := by
    simpa using @List.takeWhile_append_of_pos _ isDocumentChar s.toList [] h
  simp [ofText, checked, fit]

end Source

end Pinhole.Yaml
