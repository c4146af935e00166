import Mathlib.Data.List.DropRight
import Mathlib.Data.List.TakeDrop
import Pinhole.Console.Page
import Pinhole.Proofs.MarkedText
import Pinhole.Text.Printable

/-!
# Texts on one line

A text of printable characters that takes no more columns than the console has is laid out on one
line (`lay_of_fits`). All of it stands there but for blanks at its end, which are counted in
characters and not in columns: where marks take no column, there may be more characters than
columns.

Laying out a text never shows more of it than there is (`ink_lay_le`).
-/

namespace Pinhole

namespace Text

variable {c : Char} {cs : List Char}

/-! ## Printable characters -/

/-- The only printable blank is the space. -/
theorem eq_space_of_isPrintable (printable : isPrintable c = true) (blank : isBlank c = true) :
    c = ' ' := by
  by_contra other
  have other : c.toNat ≠ 0x20 := fun same => other (Char.toNat_inj.1 same)
  have unprintable : isPrintable c = false := by
    have inTable {t : Table} {lo hi : Nat} (h : (lo, hi) ∈ t) (hlo : lo ≤ c.toNat)
        (hhi : c.toNat ≤ hi) : (!t.contains c) = false := by
      rw [Table.contains_of_mem h hlo hhi, Bool.not_true]
    have low : (0x007F, 0x00A0) ∈ unprintableLow := by decide
    have ogham : (0x1680, 0x1680) ∈ unprintableBasic := by decide +kernel
    have quads : (0x1FFF, 0x200F) ∈ unprintableBasic := by decide +kernel
    have separators : (0x2028, 0x202F) ∈ unprintableBasic := by decide +kernel
    have mathematical : (0x205F, 0x206F) ∈ unprintableBasic := by decide +kernel
    have ideographic : (0x2FFC, 0x3000) ∈ unprintableBasic := by decide +kernel
    simp only [isBlank, Bool.or_eq_true, Bool.and_eq_true, decide_eq_true_eq, beq_iff_eq] at blank
    unfold isPrintable
    split_ifs
    · simp only [decide_eq_false_iff_not]
      omega
    · exact inTable low (by omega) (by omega)
    · have : c.toNat = 0x1680 ∨ (0x1FFF ≤ c.toNat ∧ c.toNat ≤ 0x200F) ∨
        (0x2028 ≤ c.toNat ∧ c.toNat ≤ 0x202F) ∨ c.toNat = 0x205F ∨ c.toNat = 0x3000 := by omega
      rcases this with h | ⟨lo, hi⟩ | ⟨lo, hi⟩ | h | h
      · exact inTable ogham (by omega) (by omega)
      · exact inTable quads lo hi
      · exact inTable separators lo hi
      · exact inTable mathematical (by omega) (by omega)
      · exact inTable ideographic (by omega) (by omega)
    · omega
  rw [printable] at unprintable
  cases unprintable

theorem ne_of_isPrintable {d : Char} (printable : isPrintable c = true)
    (other : isPrintable d = false) : c ≠ d := by
  rintro rfl
  rw [printable] at other
  cases other

/-! ## Columns -/

/-- The last visible character in front of a text can only add to its columns. -/
theorem columnsAfter_none_le (last : Option Char) (cs : List Char) :
    columnsAfter none cs ≤ columnsAfter last cs := by
  fun_induction columnsAfter last cs with
  | case1 => exact Nat.le_refl _
  | case2 last c isJoiner => simp [columnsAfter.eq_def none, isJoiner]
  | case3 last c isJoiner d rest ih => simpa [columnsAfter.eq_def none (c :: _), isJoiner] using ih
  | case4 last c cs notJoiner isSelector ih =>
    simp [columnsAfter.eq_def none (c :: _), notJoiner, isSelector]
  | case5 last c cs notJoiner notSelector zero ih =>
    simpa [columnsAfter.eq_def none (c :: _), notJoiner, notSelector, zero] using ih
  | case6 last c cs notJoiner notSelector visible ih =>
    simp [columnsAfter.eq_def none (c :: _), notJoiner, notSelector, visible]

/-- The columns of two texts do not overlap when they are put together, unless a joiner stands
between them. -/
theorem columns_append_le {as bs : List Char} (free : joiner ∉ as) (last : Option Char) :
    columnsAfter last as + columns bs ≤ columnsAfter last (as ++ bs) := by
  induction as generalizing last with
  | nil =>
    rw [columnsAfter, Nat.zero_add]
    exact columnsAfter_none_le last bs
  | cons c as ih =>
    obtain ⟨notJoiner, rest⟩ := not_or.1 (mt List.mem_cons.2 free)
    have notJoiner : (c == joiner) = false := beq_false_of_ne (Ne.symm notJoiner)
    rw [List.cons_append, columnsAfter.eq_def last (c :: as), columnsAfter.eq_def last (c :: _)]
    simp only [notJoiner, Bool.false_eq_true, if_false]
    split_ifs
    · have := ih rest none
      omega
    · have := ih rest none
      omega
    · exact ih rest last
    · have := ih rest (some c)
      omega

theorem columns_le_of_prefix {as bs : List Char} (h : as <+: bs) (free : joiner ∉ as) :
    columns as ≤ columns bs := by
  obtain ⟨rest, rfl⟩ := h
  exact Nat.le_trans (Nat.le_add_right _ _) (columns_append_le free none)

/-- A text without the blanks at its end is the beginning of the text. -/
theorem dropEndWhile_isPrefix (p : Char → Bool) (cs : List Char) : dropEndWhile p cs <+: cs :=
  List.rdropWhile_prefix p cs

/-- A text keeps its end if its last character is outside the class. -/
theorem dropEndWhile_eq_self_iff {p : Char → Bool} :
    dropEndWhile p cs = cs ↔ ∀ c ∈ cs.getLast?, p c = false := by
  refine List.rdropWhile_eq_self_iff.trans ⟨fun h c hc => ?_, fun h some => ?_⟩
  · obtain ⟨front, rfl⟩ := List.getLast?_eq_some_iff.1 hc
    simpa using h
  · exact Bool.not_eq_true _ ▸ h _ (List.getLast?_eq_getLast_of_ne_nil some)

end Text

namespace Page

open Text

variable {limit : Nat} {cs : List Char}

/-! ## Words -/

/-- The first word of a line is its beginning, and the next one begins with no blank. -/
theorem word?_eq_some {w rest : List Char} (h : word? cs = some (w, rest)) :
    cs = w ++ rest ∧ w ≠ [] ∧ ∀ c ∈ rest.head?, isBlank c = false := by
  unfold word? at h
  dsimp only at h
  split at h
  · cases h
  · rename_i visible
    obtain ⟨rfl, rfl⟩ := Prod.mk.inj (Option.some.inj h)
    obtain ⟨front, -⟩ := takeWhile_append_drop isBlank cs
    generalize cs.takeWhile isBlank = lead at front visible ⊢
    generalize cs.drop lead.length = rest at front visible ⊢
    obtain ⟨middle, -⟩ := takeWhile_append_drop (!isBlank ·) rest
    generalize rest.takeWhile (!isBlank ·) = body at middle visible ⊢
    obtain ⟨back, first⟩ := takeWhile_append_drop isBlank (rest.drop body.length)
    rw [List.drop_drop] at back first
    refine ⟨?_, fun none => visible ?_, first⟩
    · rw [List.append_assoc, List.append_assoc, back, middle, front]
    · simp [List.append_eq_nil_iff.1 (List.append_eq_nil_iff.1 none).1]

/-- A line without words is blank. -/
theorem word?_eq_none_iff : word? cs = none ↔ ∀ c ∈ cs, isBlank c = true := by
  refine ⟨fun h => ?_, fun blank => by simp [word?, List.takeWhile_eq_self_iff.2 blank]⟩
  unfold word? at h
  dsimp only at h
  split at h
  · rename_i none
    obtain ⟨whole, first⟩ := takeWhile_append_drop isBlank cs
    have rest : cs.drop (cs.takeWhile isBlank).length = [] := by
      cases hrest : cs.drop (cs.takeWhile isBlank).length with
      | nil => rfl
      | cons c rest =>
        rw [hrest] at first none
        simp [first c rfl] at none
    rw [rest, List.append_nil] at whole
    exact fun c hc => List.mem_takeWhile_imp (whole.symm ▸ hc)
  · cases h

/-- The words of a line are the line, unless it is blank. -/
theorem flatten_wordsFrom {fuel : Nat} (enough : cs.length ≤ fuel)
    (visible : cs = [] ∨ ∃ c ∈ cs, isBlank c = false) : (wordsFrom fuel cs).flatten = cs := by
  induction fuel generalizing cs with
  | zero =>
    obtain rfl := List.eq_nil_of_length_eq_zero (Nat.le_zero.1 enough)
    rfl
  | succ fuel ih =>
    rw [wordsFrom]
    split
    · rename_i w rest found
      obtain ⟨rfl, some, first⟩ := word?_eq_some found
      rw [List.flatten_cons, ih]
      · have := List.length_pos_of_ne_nil some
        rw [List.length_append] at enough
        omega
      · cases rest with
        | nil => exact Or.inl rfl
        | cons c rest => exact Or.inr ⟨c, List.mem_cons_self, first c rfl⟩
    · rename_i none
      rcases visible with rfl | ⟨c, hc, notBlank⟩
      · rfl
      · rw [word?_eq_none_iff.1 none c hc] at notBlank
        cases notBlank

/-! ## Texts that fit -/

/-- Words that fit on the current line are put there. -/
theorem foldl_place {d : Draft} {words : List (List Char)} (free : joiner ∉ words.flatten)
    (fits : d.column + columns words.flatten ≤ limit) :
    (words.foldl (Draft.place limit) d).lines =
      { d with current := d.current ++ words.flatten }.lines := by
  induction words generalizing d with
  | nil => simp
  | cons w words ih =>
    rw [List.flatten_cons, List.mem_append, not_or] at free
    rw [List.flatten_cons] at fits
    have both : columns w + columns words.flatten ≤ columns (w ++ words.flatten) :=
      columns_append_le free.1 none
    have word : columns (dropEndWhile isBlank w) ≤ columns w :=
      columns_le_of_prefix (dropEndWhile_isPrefix isBlank w)
        fun inside => free.1 ((dropEndWhile_isPrefix isBlank w).subset inside)
    have placed : d.place limit w =
        { d with current := d.current ++ w, column := d.column + columns w } := by
      rw [Draft.place, if_pos (by omega)]
    rw [List.foldl_cons, placed, ih free.2 (by dsimp only; omega)]
    simp [Draft.lines]

theorem cropBlanks_isPrefix (limit : Nat) (cs : List Char) : cropBlanks limit cs <+: cs :=
  List.take_prefix ..

/-- A line keeps the blanks at its end if it has no more characters than there are columns. -/
theorem cropBlanks_eq_self_iff : cropBlanks limit cs = cs ↔
    cs.length ≤ limit ∨ dropEndWhile isBlank cs = cs := by
  have kept := dropEndWhile_isPrefix isBlank cs
  rw [cropBlanks, List.take_eq_self_iff]
  constructor
  · intro h
    rcases Nat.le_total (dropEndWhile isBlank cs).length limit with le | le
    · exact Or.inl (by omega)
    · exact Or.inr (kept.eq_of_length_le (by omega))
  · rintro (fits | same)
    · omega
    · rw [same]
      omega

theorem tabParts_of_not_mem (h : '\t' ∉ cs) : tabParts cs = [cs] := by
  induction cs with
  | nil => rfl
  | cons c cs ih =>
    obtain ⟨ne, rest⟩ := not_or.1 (mt List.mem_cons.2 h)
    have := ih rest
    unfold tabParts at this ⊢
    rw [List.foldr_cons, this]
    simp [Ne.symm ne]

theorem splitLines_of_not_mem (h : '\n' ∉ cs) : splitLines cs = [cs] := by
  induction cs with
  | nil => rfl
  | cons c cs ih =>
    obtain ⟨ne, rest⟩ := not_or.1 (mt List.mem_cons.2 h)
    rw [splitLines, if_neg (Ne.symm ne), ih rest]

/-- A line that fits is not broken. -/
theorem wrapLine_of_fits (noTab : '\t' ∉ cs) (free : joiner ∉ cs) (fits : columns cs ≤ limit) :
    wrapLine limit cs = [cropBlanks limit cs] := by
  have cropped : cropColumns limit (cropBlanks limit cs) = cropBlanks limit cs := by
    have kept := cropBlanks_isPrefix limit cs
    have := columns_le_of_prefix kept fun inside => free (kept.subset inside)
    rw [cropColumns, if_pos (by omega)]
  unfold wrapLine
  dsimp only
  rw [tabParts_of_not_mem noTab, fillTabs]
  split
  · rw [List.map_singleton, cropped]
  · rename_i some
    have words : (wordsFrom cs.length cs).flatten = cs := by
      refine flatten_wordsFrom (Nat.le_refl _) (or_iff_not_imp_left.2 fun nonempty => ?_)
      by_contra blank
      have none : word? cs = none := word?_eq_none_iff.2 (by simpa using blank)
      obtain ⟨c, rest, rfl⟩ := List.exists_cons_of_ne_nil nonempty
      rw [List.length_cons, wordsFrom, none] at some
      exact some rfl
    rw [foldl_place (by rwa [words]) (by simpa [words] using fits), words]
    simp [Draft.lines, cropped]

/-- A text of printable characters that fits is laid out on one line. -/
theorem lay_of_fits {s : String} (printable : ∀ c ∈ s.toList, isPrintable c = true)
    (fits : columns s.toList ≤ limit) :
    lay limit s = String.ofList (cropBlanks limit s.toList) ++ "\n" := by
  have free {d : Char} (other : isPrintable d = false) : d ∉ s.toList := fun inside =>
    ne_of_isPrintable (printable d inside) other rfl
  have kept : s.toList.filter (!isDropped ·) = s.toList := by
    refine List.filter_eq_self.2 fun c hc => ?_
    have visible : ¬ c.toNat < 0x20 := fun lt => by
      have := printable c hc
      rw [isPrintable, if_pos (by omega), decide_eq_true_eq] at this
      omega
    simp only [isDropped, Bool.not_eq_true', Bool.or_eq_false_iff, beq_eq_false_iff_ne]
    omega
  rw [lay, kept, splitLines_of_not_mem (free (by decide)), List.flatMap_singleton,
    wrapLine_of_fits (free (by decide)) (free (by decide +kernel)) fits]
  simp

/-! ## What can be seen of a page -/

theorem splitLines_sublist (cs : List Char) : (splitLines cs).flatten.Sublist cs := by
  induction cs with
  | nil => exact List.Sublist.refl []
  | cons c cs ih =>
    rw [splitLines]
    split
    · exact ih.cons c
    · split
      · rename_i line lines hlines
        rw [hlines] at ih
        exact ih.cons_cons c
      · exact List.Sublist.cons_cons c (List.nil_sublist cs)

theorem tabParts_sublist (cs : List Char) : (tabParts cs).flatten.Sublist cs := by
  induction cs with
  | nil => exact List.Sublist.refl []
  | cons c cs ih =>
    unfold tabParts at ih ⊢
    rw [List.foldr_cons]
    split
    · exact ih.cons c
    · split
      · rename_i p ps hparts
        rw [hparts] at ih
        exact ih.cons_cons c
      · exact List.Sublist.cons_cons c (List.nil_sublist cs)

theorem ink_replicate_space (n : Nat) : ink (List.replicate n ' ') = 0 := by
  rw [ink, List.countP_replicate, if_neg (by decide)]

/-- Only spaces stand for tabs. -/
theorem ink_fillTabs (column : Nat) (parts : List (List Char)) :
    ink (fillTabs column parts) = ink parts.flatten := by
  fun_induction fillTabs column parts with
  | case1 => rfl
  | case2 column last => simp
  | case3 column p rest _ part reached next ih =>
    have space : ink [' '] = 0 := by decide
    simp only [part, ink_append, ink_replicate_space, ih, space, List.flatten_cons, Nat.add_zero]

theorem wordsFrom_sublist (fuel : Nat) (cs : List Char) :
    (wordsFrom fuel cs).flatten.Sublist cs := by
  induction fuel generalizing cs with
  | zero => exact List.nil_sublist cs
  | succ fuel ih =>
    rw [wordsFrom]
    split
    · rename_i w rest found
      obtain ⟨rfl, -, -⟩ := word?_eq_some found
      exact (List.Sublist.refl w).append (ih rest)
    · exact List.nil_sublist cs

/-- A word is cut into pieces, and no piece is lost that takes a column. -/
theorem chopFrom_sublist (limit column : Nat) (piece : List Char) (gs : List Grapheme) :
    (chopFrom limit column piece gs).flatten.Sublist (piece ++ gs.flatMap (·.chars)) := by
  induction gs generalizing column piece with
  | nil =>
    rw [chopFrom]
    split
    · exact List.nil_sublist _
    · simp
  | cons g gs ih =>
    rw [chopFrom, List.flatMap_cons]
    split
    · exact (List.Sublist.refl piece).append (ih g.columns g.chars)
    · rw [← List.append_assoc]
      exact ih (column + g.columns) (piece ++ g.chars)

theorem flatten_lines_breakWith (d : Draft) (cs : List Char) :
    (d.breakWith cs).lines.flatten = d.lines.flatten ++ cs := by
  unfold Draft.breakWith Draft.lines
  split
  · rename_i empty
    simp [List.isEmpty_iff.1 empty]
  · simp

theorem flatten_lines_foldl_breakWith (d : Draft) (parts : List (List Char)) :
    (parts.foldl Draft.breakWith d).lines.flatten = d.lines.flatten ++ parts.flatten := by
  induction parts generalizing d with
  | nil => simp
  | cons p parts ih =>
    rw [List.foldl_cons, ih, flatten_lines_breakWith, List.flatten_cons, List.append_assoc]

theorem flatten_lines_place (limit : Nat) (d : Draft) (word : List Char) :
    (d.place limit word).lines.flatten.Sublist (d.lines.flatten ++ word) := by
  rw [Draft.place]
  split_ifs
  · simp [Draft.lines]
  · rw [flatten_lines_foldl_breakWith]
    refine (List.Sublist.refl _).append ?_
    simpa [chop, flatMap_graphemes] using chopFrom_sublist limit 0 [] (graphemes word)
  · rw [flatten_lines_breakWith]

/-- Laying out words changes nothing about them but that some marks without a base may be lost. -/
theorem flatten_lines_foldl_place (limit : Nat) (d : Draft) (words : List (List Char)) :
    (words.foldl (Draft.place limit) d).lines.flatten.Sublist
      (d.lines.flatten ++ words.flatten) := by
  induction words generalizing d with
  | nil => simp
  | cons w words ih =>
    rw [List.foldl_cons, List.flatten_cons, ← List.append_assoc]
    exact (ih _).trans ((flatten_lines_place limit d w).append (List.Sublist.refl _))

theorem ink_cropGraphemes_le (limit column : Nat) (gs : List Grapheme) :
    ink (cropGraphemes limit column gs) ≤ ink (gs.flatMap (·.chars)) := by
  induction gs generalizing column with
  | nil => exact Nat.le_refl _
  | cons g gs ih =>
    rw [cropGraphemes]
    split
    · rw [ink_replicate_space]
      exact Nat.zero_le _
    · rw [List.flatMap_cons, ink_append, ink_append]
      exact Nat.add_le_add_left (ih _) _

theorem ink_crop_le (limit : Nat) (cs : List Char) :
    ink (cropColumns limit (cropBlanks limit cs)) ≤ ink cs := by
  have kept := ink_le_of_sublist (cropBlanks_isPrefix limit cs).sublist
  rw [cropColumns]
  split
  · exact kept
  · refine (ink_cropGraphemes_le limit 0 _).trans ?_
    rwa [flatMap_graphemes]

section Lines

variable {lines : List (List Char)}

/-- If no more can be seen of each line than before, no more can be seen of all of them. -/
theorem ink_flatMap_le {f : List Char → List (List Char)}
    (h : ∀ line, ink (f line).flatten ≤ ink line) :
    ink (lines.flatMap f).flatten ≤ ink lines.flatten := by
  induction lines with
  | nil => exact Nat.le_refl _
  | cons line lines ih =>
    simp only [List.flatMap_cons, List.flatten_append, List.flatten_cons, ink_append]
    exact Nat.add_le_add (h line) ih

theorem ink_map_le {f : List Char → List Char} (h : ∀ line, ink (f line) ≤ ink line) :
    ink (lines.map f).flatten ≤ ink lines.flatten := by
  rw [List.map_eq_flatMap]
  exact ink_flatMap_le fun line => by simpa using h line

end Lines

theorem ink_wrapLine_le (limit : Nat) (cs : List Char) :
    ink (wrapLine limit cs).flatten ≤ ink cs := by
  have filled : ink (fillTabs 0 (tabParts cs)) ≤ ink cs := by
    rw [ink_fillTabs]
    exact ink_le_of_sublist (tabParts_sublist cs)
  unfold wrapLine
  dsimp only
  generalize fillTabs 0 (tabParts cs) = line at filled
  refine (ink_map_le (ink_crop_le limit)).trans (Nat.le_trans ?_ filled)
  split
  · simp
  · have placed := flatten_lines_foldl_place limit {} (wordsFrom line.length line)
    exact ink_le_of_sublist (placed.trans (wordsFrom_sublist line.length line))

/-- No more can be seen of a text when it is laid out. -/
theorem ink_lay_le (limit : Nat) (s : String) : ink (lay limit s).toList ≤ ink s.toList := by
  have ended (line : List Char) : ink (line ++ ['\n']) ≤ ink line := by
    rw [ink_append, show ink ['\n'] = 0 by decide, Nat.add_zero]
  have split : (splitLines (s.toList.filter (!isDropped ·))).flatten.Sublist s.toList :=
    (splitLines_sublist _).trans List.filter_sublist
  rw [lay, String.toList_ofList, List.flatMap_def]
  calc
    _ ≤ ink (List.flatMap (wrapLine limit) (splitLines (s.toList.filter (!isDropped ·)))).flatten :=
      ink_map_le ended
    _ ≤ ink (splitLines (s.toList.filter (!isDropped ·))).flatten :=
      ink_flatMap_le (ink_wrapLine_le limit)
    _ ≤ ink s.toList := ink_le_of_sublist split

end Page

end Pinhole
