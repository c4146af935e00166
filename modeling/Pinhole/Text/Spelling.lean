import Pinhole.Text.Lower
import Pinhole.Text.Quoted

/-!
# Spellings

The content of a scalar as its document spells it. Escapes can name surrogates, which are no
characters by themselves; a content with such a code point is torn. In a torn spelling each
surrogate is kept as a stand-in, a private character at a fixed distance, so that a spelling is
read like any text; what is shown of it shows the surrogate.

`ofPoints_toNat` says that a spelling without surrogates is just its text.
-/

namespace Pinhole.Text

/-- A text, or a torn text in which private characters stand in for surrogates. -/
structure Spelling where
  text : String
  torn : Bool := false
  deriving DecidableEq, Repr

/-- Whether a code point is a surrogate. -/
def isSurrogate (n : Nat) : Bool := 0xD800 ≤ n && n ≤ 0xDFFF

/-- How far a stand-in is above its surrogate. -/
def standInDistance : Nat := 0x100000

/-- The character of a code point, or the stand-in of a surrogate. -/
def pointChar (n : Nat) : Char := Char.ofNat (if isSurrogate n then n + standInDistance else n)

namespace Spelling

/-- The spelling that some code points make up. -/
def ofPoints (ps : List Nat) : Spelling :=
  ⟨String.ofList (ps.map pointChar), ps.any isSurrogate⟩

/-- Some characters of a spelling. -/
def part (s : Spelling) (cs : List Char) : Spelling := ⟨String.ofList cs, s.torn⟩

/-- A spelling with its capitals made small. -/
def lower (s : Spelling) : Spelling := ⟨Text.lower s.text, s.torn⟩

/-- A character of a torn spelling as it stands between the given quotes. -/
def quotedPoint (quote c : Char) : List Char :=
  let n := c.toNat - standInDistance
  if isSurrogate n then '\\' :: 'u' :: hexDigits .lower 4 n else quotedChar quote c

/-- A spelling between quotes. -/
def quoted (s : Spelling) : String :=
  if s.torn then
    let quote := quoteMark s.text.toList
    String.ofList (quote :: s.text.toList.flatMap (quotedPoint quote) ++ [quote])
  else Text.quoted s.text

/-- The text of a spelling with the replacement character for every surrogate. -/
def mended (s : Spelling) : String :=
  if s.torn then
    s.text.map fun c =>
      if isSurrogate (c.toNat - standInDistance) then Char.ofNat 0xFFFD else c
  else s.text

end Spelling

/-- No character is a surrogate. -/
theorem isSurrogate_toNat (c : Char) : isSurrogate c.toNat = false := by
  have h := c.valid
  simp only [UInt32.isValidChar, Nat.isValidChar] at h
  simp only [isSurrogate, Char.toNat, Bool.and_eq_false_iff, decide_eq_false_iff_not]
  omega

/-- The code points of characters spell those characters. -/
theorem Spelling.ofPoints_toNat (cs : List Char) :
    ofPoints (cs.map Char.toNat) = ⟨String.ofList cs, false⟩ := by
  have chars : (cs.map Char.toNat).map pointChar = cs := by
    simp [pointChar, isSurrogate_toNat, Char.ofNat_toNat, Function.comp_def]
  have whole : (cs.map Char.toNat).any isSurrogate = false := by
    simp [isSurrogate_toNat]
  simp [ofPoints, chars, whole]

end Pinhole.Text
