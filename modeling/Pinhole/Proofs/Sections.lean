import Pinhole.Proofs.Lexing

/-!
# Reading sections of settings back

A settings file is laid out in sections of settings, one setting to a line. `tokens_of_sections` says
which tokens it is read as, whatever the settings are: wherever a value ends, the lexer stands in front
of the next name (`Stands`), and what has been read before is not touched any more.
-/

namespace Pinhole.Yaml

/-- A setting on its line, with the layout of its value. -/
structure Line where
  name : String
  style : ScalarStyle
  content : String
  out : List Char

/-- A section of settings. -/
structure Section where
  name : String
  lines : List Line

namespace Line

/-- The column at which the names of settings begin. -/
def inset : Nat := 2

/-- A line that is laid out as it should be. -/
structure Fit (indent : Nat) (x : Line) : Prop where
  name : Lexer.IsName x.name.toList
  value : Scribed indent x.style x.content.toList x.out

/-- The tokens of a line. -/
def tokens (x : Line) : List Token :=
  [.key, .scalar .plain ⟨x.name, false⟩, .value, .scalar x.style ⟨x.content, false⟩]

/-- The column at which some lines begin; where there are none, what follows them. -/
def columnOf (xs : List Line) : Nat := if xs.isEmpty then 0 else inset

/-- Some lines and what follows them, from the first name on. -/
def textOf (after : List Char) : List Line → List Char
  | [] => after
  | x :: xs =>
    x.name.toList ++ ':' :: ' ' ::
      (x.out ++ '\n' :: (List.replicate (columnOf xs) ' ' ++ textOf after xs))

/-- Lines with the margin in front of each of them. -/
theorem margin_textOf (after : List Char) (xs : List Line) :
    List.replicate (columnOf xs) ' ' ++ textOf after xs =
      xs.flatMap (fun x => List.replicate inset ' ' ++ x.name.toList ++
        ':' :: ' ' :: (x.out ++ ['\n'])) ++ after := by
  induction xs with
  | nil => rfl
  | cons x xs ih =>
    rw [List.flatMap_cons, List.append_assoc, ← ih, textOf, show columnOf (x :: xs) = inset from rfl]
    simp

end Line

namespace Section

/-- A section that is laid out as it should be. -/
structure Fit (indent : Nat) (s : Section) : Prop where
  name : Lexer.IsName s.name.toList
  filled : s.lines ≠ []
  lines : ∀ x ∈ s.lines, x.Fit indent

/-- The tokens of a section up to the end of its settings. -/
def tokens (s : Section) : List Token :=
  [.key, .scalar .plain ⟨s.name, false⟩, .value, .blockMappingStart] ++ s.lines.flatMap Line.tokens

/-- Some sections as they are written. -/
def textOf : List Section → List Char
  | [] => []
  | s :: ss =>
    s.name.toList ++ ':' :: '\n' :: (List.replicate Line.inset ' ' ++ Line.textOf (textOf ss) s.lines)

end Section

namespace Lexer

section Sections

variable {indent : Nat} {l : Lexer} {ts ts' : List Token} {indents : List Nat} {after : List Char}

theorem BeginsName.append {w : List Char} (h : IsName w) (rest : List Char) :
    BeginsName (w ++ rest) := by
  obtain ⟨x, w, rfl⟩ := List.exists_cons_of_ne_nil h.word.filled
  exact h.begins

theorem beginsName_lines {xs : List Line} (fit : ∀ x ∈ xs, x.Fit indent) (h : BeginsName after) :
    BeginsName (Line.textOf after xs) := by
  cases xs with
  | nil => exact h
  | cons x xs => exact .append (fit x List.mem_cons_self).name _

/-- A line is read as its tokens. The first one of a section opens a mapping. -/
theorem reads_line {x : Line} {xs : List Line} {m : Nat} {ms : List Nat} (fit : x.Fit indent)
    (inner : Line.inset < indent) (begins : BeginsName (Line.textOf after xs))
    (stands : Stands l (Line.textOf after (x :: xs)) Line.inset ts (m :: ms))
    (less : m ≤ Line.inset) :
    ∃ l', Reads l l' ∧ Stands l' (Line.textOf after xs) (Line.columnOf xs)
      (ts ++ (if m < Line.inset then [.blockMappingStart] else []) ++ x.tokens)
      (if m < Line.inset then Line.inset :: m :: ms else m :: ms) := by
  obtain ⟨i, n, k, inside, key⟩ := reads_key fit.name (by decide) stands
    (closeBlocks_of_le (by simpa using less) _)
  have column : Line.columnOf xs ≤ Line.inset := by
    rw [Line.columnOf]
    split_ifs <;> decide
  have opens : innermost (m :: ms) < (Line.inset : Int) ↔ m < Line.inset := by simp [innermost]
  simp only [opens, String.ofList_toList] at key
  split_ifs at key ⊢ with first
  · obtain ⟨l', value, stands'⟩ := reads_value fit.value inner begins column i n
      (Nat.le_of_lt inside)
    refine ⟨l', key.trans value, ?_⟩
    simpa [keyTokens, Line.tokens, first] using stands'
  · obtain rfl : m = Line.inset := Nat.le_antisymm less (Nat.not_lt.1 first)
    obtain ⟨l', value, stands'⟩ := reads_value fit.value inner begins column i n
      (Nat.le_of_lt inside)
    refine ⟨l', key.trans value, ?_⟩
    simpa [keyTokens, Line.tokens] using stands'

/-- The lines of a section after the first are read one after the other. -/
theorem reads_lines {xs : List Line} {ms : List Nat} (fit : ∀ x ∈ xs, x.Fit indent)
    (inner : Line.inset < indent) (begins : BeginsName after)
    (stands : Stands l (Line.textOf after xs) (Line.columnOf xs) ts (Line.inset :: ms)) :
    ∃ l', Reads l l' ∧
      Stands l' after 0 (ts ++ xs.flatMap Line.tokens) (Line.inset :: ms) := by
  induction xs generalizing l ts with
  | nil => exact ⟨l, .refl l, by simpa [Line.textOf, Line.columnOf] using stands⟩
  | cons x xs ih =>
    obtain ⟨first, others⟩ := List.forall_mem_cons.1 fit
    obtain ⟨l', line, stands'⟩ := reads_line first inner (beginsName_lines others begins) stands
      (Nat.le_refl _)
    simp only [Nat.lt_irrefl, if_false, List.append_nil] at stands'
    obtain ⟨l'', lines, stands''⟩ := ih others stands'
    exact ⟨l'', line.trans lines, by simpa using stands''⟩

/-- A section is read as its tokens. The first one of a document opens a mapping, and any other one
closes that of the section in front of it. -/
theorem reads_section {s : Section} {opens : Bool} (fit : s.Fit indent) (inner : Line.inset < indent)
    (begins : BeginsName after)
    (stands : Stands l (s.name.toList ++ ':' :: '\n' ::
      (List.replicate Line.inset ' ' ++ Line.textOf after s.lines)) 0 ts indents)
    (closes : closeBlocks (0 : Nat) indents ts.toArray = (if opens then [] else [0], ts'.toArray)) :
    ∃ l', Reads l l' ∧
      Stands l' after 0 (ts' ++ (if opens then [.blockMappingStart] else []) ++ s.tokens)
        [Line.inset, 0] := by
  obtain ⟨i, n, k, -, key⟩ := reads_key fit.name (by decide) stands closes
  have front : BeginsName (Line.textOf after s.lines) := beginsName_lines fit.lines begins
  have outer : (if innermost (if opens then [] else [0]) < ((0 : Nat) : Int) then
      0 :: (if opens then [] else [0]) else if opens then [] else [0]) = [0] := by
    cases opens <;> rfl
  have mark : keyTokens (innermost (if opens then [] else [0]) < ((0 : Nat) : Int)) =
      (if opens then [.blockMappingStart] else []) ++ [.key] := by
    cases opens <;> rfl
  rw [outer, mark, String.ofList_toList] at key
  obtain ⟨x, xs, hlines⟩ := List.exists_cons_of_ne_nil fit.filled
  obtain ⟨first, others⟩ : x.Fit indent ∧ ∀ y ∈ xs, y.Fit indent :=
    List.forall_mem_cons.1 (hlines ▸ fit.lines)
  rw [hlines] at front key
  generalize hopened : ts' ++ ((if opens then [.blockMappingStart] else []) ++ [.key]) ++
    [.scalar .plain ⟨s.name, false⟩, .value] = opened at key
  have below : Stands (free ⟨'\n' :: (List.replicate Line.inset ' ' ++ Line.textOf after (x :: xs)), i,
      n, k⟩ opened [0] false) (Line.textOf after (x :: xs)) Line.inset opened [0] :=
    stands_line front i n k
  obtain ⟨l', line, stands'⟩ := reads_line first inner (beginsName_lines others begins) below
    (by decide)
  obtain ⟨l'', lines, stands''⟩ := reads_lines others inner begins stands'
  refine ⟨l'', key.trans (line.trans lines), ?_⟩
  rw [← hopened] at stands''
  simpa [hlines, Line.inset, Section.tokens] using stands''

/-- The sections of a document after the first are read one after the other. -/
theorem reads_sections {ss : List Section} (fit : ∀ s ∈ ss, s.Fit indent)
    (inner : Line.inset < indent)
    (stands : Stands l (Section.textOf ss) 0 ts [Line.inset, 0]) :
    ∃ l', Reads l l' ∧
      Stands l' [] 0 (ts ++ ss.flatMap fun s => .blockEnd :: s.tokens) [Line.inset, 0] := by
  induction ss generalizing l ts with
  | nil => exact ⟨l, .refl l, by simpa [Section.textOf] using stands⟩
  | cons s ss ih =>
    obtain ⟨first, others⟩ := List.forall_mem_cons.1 fit
    have begins : BeginsName (Section.textOf ss) := by
      cases ss with
      | nil => exact nofun
      | cons s' ss => exact .append (others s' List.mem_cons_self).name _
    have closes : closeBlocks (0 : Nat) [Line.inset, 0] ts.toArray =
        (if false then [] else [0], (ts ++ [Token.blockEnd]).toArray) := by
      simp [closeBlocks, Line.inset]
    obtain ⟨l', section', stands'⟩ := reads_section first inner begins stands closes
    obtain ⟨l'', sections, stands''⟩ := ih others stands'
    exact ⟨l'', section'.trans sections, by simpa using stands''⟩

end Sections

end Lexer

/-- The tokens of a settings file. -/
def Section.tokensOf (ss : List Section) : List Token :=
  .blockMappingStart :: ss.flatMap (fun s => s.tokens ++ [.blockEnd]) ++ [.blockEnd, .streamEnd]

/-- A mark in front of each of some items and one at the end is one in front and one behind each. -/
theorem flatMap_cons_append {α β : Type} (f : α → List β) (mark : β) (xs : List α) :
    xs.flatMap (fun x => mark :: f x) ++ [mark] = mark :: xs.flatMap fun x => f x ++ [mark] := by
  induction xs with
  | nil => rfl
  | cons x xs ih => simp [ih]

/-- Where nothing is left to read, the token that ends the document is the last one. -/
theorem Lexer.toEnd_of_step {l l' l'' : Lexer} (reads : Reads l l') (step : l'.step = .ok l'')
    (last : l''.tokens.back? = some .streamEnd) :
    toEnd (l.cursor.rest.length + 2) none l = ⟨l''.tokens.toList, none⟩ := by
  obtain ⟨n, bound, skips⟩ := reads
  obtain ⟨fuel, hfuel⟩ : ∃ fuel, l.cursor.rest.length + 2 = fuel + 1 + n :=
    ⟨l.cursor.rest.length + 1 - n, by omega⟩
  rw [hfuel, skips, toEnd, stepTo, step]
  simp [last]

/-- A settings file is read as the tokens of its sections. -/
theorem tokens_of_sections {indent : Nat} {ss : List Section} (filled : ss ≠ [])
    (fit : ∀ s ∈ ss, s.Fit indent) (inner : Line.inset < indent) :
    tokens ⟨Section.textOf ss, none⟩ = ⟨Section.tokensOf ss, none⟩ := by
  have begins {ss : List Section} (fit : ∀ s ∈ ss, s.Fit indent) :
      Lexer.BeginsName (Section.textOf ss) := by
    cases ss with
    | nil => exact nofun
    | cons s ss => exact .append (fit s List.mem_cons_self).name _
  have noMark : ((⟨Section.textOf ss, 0, 0, 0⟩ : Cursor).peek == Char.ofNat 0xFEFF) = false := by
    cases htext : Section.textOf ss with
    | nil => decide
    | cons c cs =>
      exact beq_false_of_ne (ne_of_class (begins fit c (by rw [htext]; rfl)) (by decide))
  rw [tokens]
  simp only [noMark, Bool.false_eq_true, if_false]
  obtain ⟨s, ss, rfl⟩ := List.exists_cons_of_ne_nil filled
  obtain ⟨first, others⟩ := List.forall_mem_cons.1 fit
  -- The first section opens the mapping of the document, and the others close one another.
  have front : Lexer.closeBlocks (0 : Nat) [] [].toArray = (if true then [] else [0], [].toArray) := rfl
  obtain ⟨l, reads, stands⟩ := Lexer.reads_section first inner (begins others)
    (Lexer.stands_here (begins fit) 0 0) front
  obtain ⟨l', reads', stands'⟩ := Lexer.reads_sections others inner stands
  obtain ⟨i, n, arrives⟩ := stands'.arrives
  generalize hts : ([] : List Token) ++ (if true then [.blockMappingStart] else []) ++ s.tokens ++
    ss.flatMap (fun s => .blockEnd :: s.tokens) = ts at arrives
  have closes : Lexer.closeBlocks (0 : Nat) [Line.inset, 0] ts.toArray =
      ([0], (ts ++ [Token.blockEnd]).toArray) := by simp [Lexer.closeBlocks, Line.inset]
  have closesAll : Lexer.closeBlocks (-1) [0] (ts ++ [Token.blockEnd]).toArray =
      ([], (ts ++ [Token.blockEnd, .blockEnd]).toArray) := by simp [Lexer.closeBlocks]
  have run := Lexer.toEnd_of_step (reads.trans reads') (Lexer.step_end arrives closes closesAll)
    (by simp)
  refine run.trans ?_
  have turned := flatMap_cons_append Section.tokens Token.blockEnd ss
  have layout : ts ++ [Token.blockEnd, .blockEnd] ++ [.streamEnd] = Section.tokensOf (s :: ss) := by
    rw [← hts, Section.tokensOf]
    simp only [List.flatMap_cons, List.append_assoc, List.nil_append, if_true, List.cons_append,
      ← turned]
  simp [layout]

end Pinhole.Yaml
