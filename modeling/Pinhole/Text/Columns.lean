import Pinhole.Text.Width

/-!
# Terminal columns

How many columns of a terminal a text takes, and the parts that it can be cut into. Two invisible
characters act on their neighbours. A joiner puts the next character into the place of the one
before it, so that the next one counts for nothing; a selector for coloured presentation can widen
the last visible character by a column.

A `Grapheme` is a character with what is written into its place. Cutting a text between graphemes
loses nothing: that is `flatMap_graphemes`.
-/

namespace Pinhole.Text

/-- The character that puts the next one into the place of the one before. -/
def joiner : Char := Char.ofNat 0x200D

/-- The character that asks for coloured presentation of the one before. -/
def selector : Char := Char.ofNat 0xFE0F

/-- The columns of the rest of a text, after its last visible character, if that can still be
widened. -/
def columnsAfter (last : Option Char) : List Char → Nat
  | [] => 0
  | c :: cs =>
    if c == joiner then
      match cs with
      | [] => 0
      | _ :: rest => columnsAfter last rest
    else if c == selector then (if last.any widens then 1 else 0) + columnsAfter none cs
    else if columnsOf c = 0 then columnsAfter last cs
    else columnsOf c + columnsAfter (some c) cs

/-- The columns that a text takes. -/
def columns (cs : List Char) : Nat := columnsAfter none cs

/-- A character with what is written into its place, and the columns that this takes. -/
structure Grapheme where
  chars : List Char
  columns : Nat
  deriving DecidableEq, Repr

/-- A grapheme with more characters in its place. -/
def Grapheme.join (g : Grapheme) (cs : List Char) : Grapheme := { g with chars := g.chars ++ cs }

/-- The graphemes of the rest of a text, after the one that is still open and the last visible
character, if that can still be widened. -/
def graphemesAfter (g : Option Grapheme) (last : Option Char) : List Char → List Grapheme
  | [] => g.toList
  | c :: cs =>
    match g with
    | none =>
      let n := if c == joiner || c == selector then 0 else columnsOf c
      graphemesAfter (some ⟨[c], n⟩) (if n = 0 then last else some c) cs
    | some g =>
      if c == joiner then
        match cs with
        | [] => [g.join [c]]
        | d :: rest => graphemesAfter (some (g.join [c, d])) last rest
      else if c == selector then
        if last.any widens then
          graphemesAfter (some ⟨g.chars ++ [c], g.columns + 1⟩) none cs
        else graphemesAfter (some (g.join [c])) last cs
      else if columnsOf c = 0 then graphemesAfter (some (g.join [c])) last cs
      else g :: graphemesAfter (some ⟨[c], columnsOf c⟩) (some c) cs

/-- The graphemes of a text. -/
def graphemes (cs : List Char) : List Grapheme := graphemesAfter none none cs

/-- The characters of graphemes that are read after another one. -/
theorem flatMap_graphemesAfter (g : Option Grapheme) (last : Option Char) (cs : List Char) :
    (graphemesAfter g last cs).flatMap (·.chars) = g.toList.flatMap (·.chars) ++ cs := by
  fun_induction graphemesAfter g last cs <;> simp_all [Grapheme.join]

/-- Cutting a text into graphemes loses nothing. -/
theorem flatMap_graphemes (cs : List Char) : (graphemes cs).flatMap (·.chars) = cs := by
  simp [graphemes, flatMap_graphemesAfter]

/-- A text of visible ASCII and spaces takes one column for each of its characters. -/
theorem columns_of_ascii {cs : List Char} (h : ∀ c ∈ cs, 0x20 ≤ c.toNat ∧ c.toNat < 0x7F) :
    columns cs = cs.length := by
  suffices ∀ last, columnsAfter last cs = cs.length from this none
  induction cs with
  | nil => intro last; rfl
  | cons c cs ih =>
    intro last
    obtain ⟨lo, hi⟩ := h c List.mem_cons_self
    have hj : ¬ c = joiner := by rintro rfl; exact absurd hi (by decide)
    have hs : ¬ c = selector := by rintro rfl; exact absurd hi (by decide)
    have rest := ih (fun d hd => h d (List.mem_cons_of_mem _ hd)) (some c)
    unfold columnsAfter
    simp [hj, hs, columnsOf_of_ascii lo hi, rest, Nat.add_comm]

end Pinhole.Text
