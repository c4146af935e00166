import Pinhole.Text.Hex
import Pinhole.Text.Printable

/-!
# Quoted texts

A text shown between quotes inside a message, with everything invisible spelled out. Single quotes
are the rule; a text that holds a single quote and no double quote is put between double quotes.
The quote in use and the backslash get a backslash; line feed, carriage return and tab have short
escapes; any other unprintable character is spelled by its code point in the shortest of three
widths.
-/

namespace Pinhole.Text

/-- The quote that surrounds a text. -/
def quoteMark (cs : List Char) : Char :=
  if cs.contains '\'' && !cs.contains '"' then '"' else '\''

/-- One character as it stands between the given quotes. -/
def quotedChar (quote c : Char) : List Char :=
  if c = quote ∨ c = '\\' then ['\\', c]
  else if c = '\n' then ['\\', 'n']
  else if c = '\r' then ['\\', 'r']
  else if c = '\t' then ['\\', 't']
  else if isPrintable c then [c]
  else if c.toNat < 0x100 then '\\' :: 'x' :: hexDigits .lower 2 c.toNat
  else if c.toNat < 0x10000 then '\\' :: 'u' :: hexDigits .lower 4 c.toNat
  else '\\' :: 'U' :: hexDigits .lower 8 c.toNat

/-- A text between quotes. -/
def quoted (s : String) : String :=
  let quote := quoteMark s.toList
  String.ofList (quote :: s.toList.flatMap (quotedChar quote) ++ [quote])

/-- Visible ASCII other than the quote and the backslash stands for itself. -/
theorem quotedChar_of_ascii {quote c : Char} (hq : c ≠ quote) (hb : c ≠ '\\')
    (lo : 0x20 ≤ c.toNat) (hi : c.toNat < 0x7F) : quotedChar quote c = [c] := by
  have hn : c ≠ '\n' := by rintro rfl; exact absurd lo (by decide)
  have hr : c ≠ '\r' := by rintro rfl; exact absurd lo (by decide)
  have ht : c ≠ '\t' := by rintro rfl; exact absurd lo (by decide)
  simp [quotedChar, hq, hb, hn, hr, ht, isPrintable_of_ascii lo hi]

end Pinhole.Text
