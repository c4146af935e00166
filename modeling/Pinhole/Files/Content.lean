/-!
# Texts in files

Files hold bytes, and texts are stored in UTF-8. A text is read with its line ends made equal: a
carriage return, or one with a line feed after it, reads as a line feed.

Bytes are decoded in blocks. Where a file holds no text as a whole, the blocks in front of the first
bad byte are one still; a character may begin in one block and end in the next.
-/

namespace Pinhole.Files

/-- The bytes of a text. -/
def encode (s : String) : ByteArray := s.toUTF8

/-- The text of some bytes, if they are one. -/
def decode? (bytes : ByteArray) : Option String := String.fromUTF8? bytes

/-- The bytes of a text are that text. -/
theorem decode?_encode (s : String) : decode? (encode s) = some s := by
  rw [decode?, encode, String.fromUTF8?, String.toUTF8_eq_toByteArray, dif_pos s.isValidUTF8]
  rfl

/-- A text with a line feed at the end of every line. -/
def evenLines : List Char → List Char
  | '\r' :: '\n' :: cs => '\n' :: evenLines cs
  | '\r' :: cs => '\n' :: evenLines cs
  | c :: cs => c :: evenLines cs
  | [] => []

/-- The text of some bytes with its line ends made equal. -/
def decodeLines? (bytes : ByteArray) : Option String :=
  (decode? bytes).map fun s => String.ofList (evenLines s.toList)

/-! ## Files that are no text -/

/-- The number of bytes that are decoded together. -/
def blockSize : Nat := 8192

/-- The number of bytes of a character that begins with a byte; one if no longer character does. -/
def characterSize (b : UInt8) : Nat :=
  if b < 0xC2 then 1 else if b < 0xE0 then 2 else if b < 0xF0 then 3 else if b < 0xF5 then 4 else 1

/-- Whether more bytes can make a character of some bytes. -/
def isUnfinished : List UInt8 → Bool
  | [] => true
  | b :: bs => bs.length + 1 < characterSize b && bs.all fun b => 0x80 ≤ b && b < 0xC0

/-- The text of some bytes up to a last character that may be unfinished. -/
def decodeFront? (bytes : ByteArray) : Option String :=
  (List.range 4).findSome? fun n =>
    let size := bytes.size - n
    if isUnfinished (bytes.toList.drop size) then decode? (bytes.extract 0 size) else none

/-- The text of the blocks in front of the first one that is no text, with its line ends made
equal. -/
def readableLines (bytes : ByteArray) : List Char :=
  let fronts := (List.range (bytes.size / blockSize + 2)).map fun n =>
    decodeFront? (bytes.extract 0 (n * blockSize))
  let last := (fronts.takeWhile Option.isSome).getLast?.join
  evenLines (last.getD "").toList

/-! ## Lines -/

/-- A text without carriage returns is read as it stands. -/
theorem evenLines_of_not_mem {cs : List Char} (h : '\r' ∉ cs) : evenLines cs = cs := by
  induction cs with
  | nil => rfl
  | cons c cs ih =>
    have hc : c ≠ '\r' := fun e => h (e ▸ List.mem_cons_self ..)
    have ht : '\r' ∉ cs := fun m => h (List.mem_cons_of_mem _ m)
    unfold evenLines
    split
    · exact absurd (List.cons.inj ‹_›).1 hc
    · exact absurd (List.cons.inj ‹_›).1 hc
    · rename_i heq
      obtain ⟨rfl, rfl⟩ := List.cons.inj heq
      rw [ih ht]
    · cases ‹_›

end Pinhole.Files
