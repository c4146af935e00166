import Pinhole.Proofs.Quoted

/-!
# Reading plain scalars back

A phrase that is laid out (`Laid`) is read back as the phrase. A plain scalar has no mark at its end:
the reader goes on over line breaks and spaces, and finds that the scalar has ended from the column of
what comes next. So the column of the cursor has to be known here.
-/

namespace Pinhole.Yaml

/-! ## Columns -/

namespace Cursor

variable {xs w rest : List Char} {x : Char} {i l k : Nat}

theorem next_inline (h : x = ' ' ∨ Glyph x) :
    (⟨x :: xs, i, l, k⟩ : Cursor).next = ⟨xs, i + 1, l, k + 1⟩ := by
  have noBreak : isBreak x = false := by
    obtain rfl | glyph := h
    · decide
    · exact glyph.isBreak
  have noReturn : x ≠ '\r' := by
    rintro rfl
    cases noBreak
  have noMark : x ≠ Char.ofNat 0xFEFF := by
    rintro rfl
    revert h
    decide
  simp [next, noBreak, noReturn, noMark]

theorem next_feed : (⟨'\n' :: xs, i, l, k⟩ : Cursor).next = ⟨xs, i + 1, l + 1, 0⟩ := by
  simp [next, isBreak]

/-- A line is followed character by character. -/
theorem skip_inline (h : ∀ x ∈ w, x = ' ' ∨ Glyph x) :
    (⟨w ++ rest, i, l, k⟩ : Cursor).skip w.length =
      ⟨rest, i + w.length, l, k + w.length⟩ := by
  induction w generalizing i k with
  | nil => rfl
  | cons x w ih =>
    obtain ⟨first, others⟩ := List.forall_mem_cons.1 h
    rw [List.length_cons, skip, List.cons_append, next_inline first, ih others]
    simp [Nat.add_comm, Nat.add_left_comm]

theorem inline_of_mem_replicate {n : Nat} (h : x ∈ List.replicate n ' ') : x = ' ' ∨ Glyph x :=
  .inl (List.eq_of_mem_replicate h)

/-- Spaces are taken up to something else. -/
theorem takeRun_spaces {n : Nat} (ends : rest.head? ≠ some ' ') :
    (⟨List.replicate n ' ' ++ rest, i, l, k⟩ : Cursor).takeRun (· == ' ') =
      (List.replicate n ' ', ⟨rest, i + n, l, k + n⟩) := by
  have split : (⟨List.replicate n ' ' ++ rest, i, l, k⟩ : Cursor).rest =
      List.replicate n ' ' ++ rest := rfl
  have taken := takeRun_append (p := (· == ' ')) split
    (fun x hx => by simp [List.eq_of_mem_replicate hx])
    (fun x hx => by
      rw [beq_eq_false_iff_ne]
      rintro rfl
      exact ends hx)
  rw [taken, skip_inline fun x hx => inline_of_mem_replicate hx, List.length_replicate]

end Cursor

/-! ## Runs of plain text -/

theorem endsPlain_glyph {x d : Char} (glyph : Glyph x) (h : x = ':' → isBlankOrEnd d = false) :
    endsPlain false x d = false := by
  simp only [endsPlain, glyph.isBlankOrEnd, Bool.false_and, Bool.or_false, Bool.false_or]
  simpa using h

/-- A word is taken as a whole where plain text ends after it. -/
theorem plainRun_word {w rest : List Char} (glyphs : ∀ c ∈ w, Glyph c)
    (noKey : w.getLast? ≠ some ':') (ends : plainRun false rest = []) :
    plainRun false (w ++ rest) = w := by
  induction w with
  | nil => exact ends
  | cons x w ih =>
    obtain ⟨first, others⟩ := List.forall_mem_cons.1 glyphs
    have goes : endsPlain false x ((w ++ rest).headD endMark) = false := by
      refine endsPlain_glyph first fun colon => ?_
      cases w with
      | nil => exact absurd (by rw [colon]; rfl) noKey
      | cons y w => exact (others y List.mem_cons_self).isBlankOrEnd
    have noKey' : w.getLast? ≠ some ':' := by
      cases w with
      | nil => nofun
      | cons y w => rwa [List.getLast?_cons_cons] at noKey
    rw [List.cons_append, plainRun, goes, ih others noKey']
    rfl

theorem plainRun_blank {x : Char} {xs : List Char} (h : isBlankOrEnd x = true) :
    plainRun false (x :: xs) = [] := by
  simp [plainRun, endsPlain, h]

/-! ## Blanks of plain text -/

/-- What begins with a glyph, if with anything, has no blank at the cursor. -/
theorem BeginsGlyph.peek {c : Cursor} (h : BeginsGlyph c.rest) :
    c.peek ≠ ' ' ∧ isBreak c.peek = false := by
  cases hc : c.rest with
  | nil =>
    have : c.peek = endMark := by rw [Cursor.peek, hc]; rfl
    rw [this]
    decide
  | cons x xs =>
    have glyph : Glyph x := h x (hc ▸ rfl)
    rw [Cursor.peek_of_rest hc]
    exact ⟨glyph.ne (by decide), glyph.isBreak⟩

theorem BeginsGlyph.noSpace {cs : List Char} (h : BeginsGlyph cs) : cs.head? ≠ some ' ' :=
  fun hhead => absurd (h ' ' hhead) (by decide)

section Blanks

variable {rest : List Char} {n i l k : Nat}

theorem plainBreaks_spaces (begins : BeginsGlyph rest) {fuel : Nat} (enough : n < fuel)
    (acc : List Char) :
    plainBreaks fuel acc ⟨List.replicate n ' ' ++ rest, i, l, k⟩ =
      (some acc, ⟨rest, i + n, l, k + n⟩) := by
  induction n generalizing fuel i k with
  | zero =>
    obtain ⟨fuel, rfl⟩ : ∃ m, fuel = m + 1 := ⟨fuel - 1, by omega⟩
    obtain ⟨space, text⟩ := BeginsGlyph.peek (c := ⟨rest, i, l, k⟩) begins
    simp [plainBreaks, space, text]
  | succ n ih =>
    obtain ⟨fuel, rfl⟩ : ∃ m, fuel = m + 1 := ⟨fuel - 1, by omega⟩
    have hpeek : (⟨' ' :: (List.replicate n ' ' ++ rest), i, l, k⟩ : Cursor).peek = ' ' := rfl
    rw [List.replicate_succ, List.cons_append, plainBreaks, hpeek, Cursor.next_inline (.inl rfl)]
    simp only [beq_self_eq_true, if_true]
    rw [ih (by omega)]
    simp [Nat.add_comm, Nat.add_left_comm]

/-- Spaces inside a line are kept. -/
theorem plainBlanks_spaces (begins : BeginsGlyph rest) :
    plainBlanks ⟨List.replicate n ' ' ++ rest, i, l, k⟩ =
      (List.replicate n ' ', false, ⟨rest, i + n, l, k + n⟩) := by
  obtain ⟨-, text⟩ := BeginsGlyph.peek (c := ⟨rest, i + n, l, k + n⟩) begins
  rw [plainBlanks, Cursor.takeRun_spaces begins.noSpace]
  simp [text]

/-- The end of a line and the spaces in front of the next one are folded into a space. -/
theorem plainBlanks_line (begins : BeginsGlyph rest)
    (inside : n = 0 → ∀ x ∈ rest.head?, x ≠ '-' ∧ x ≠ '.') :
    plainBlanks ⟨'\n' :: (List.replicate n ' ' ++ rest), i, l, k⟩ =
      ([' '], true, ⟨rest, i + 1 + n, l + 1, n⟩) := by
  have noBlanks : (⟨'\n' :: (List.replicate n ' ' ++ rest), i, l, k⟩ : Cursor).takeRun (· == ' ') =
      ([], ⟨'\n' :: (List.replicate n ' ' ++ rest), i, l, k⟩) := Cursor.takeRun_nil (by simp)
  have noSeparator :
      (⟨List.replicate n ' ' ++ rest, i + 1, l + 1, 0⟩ : Cursor).atSeparator = false := by
    apply Cursor.not_atSeparator
    cases n with
    | zero => exact inside rfl
    | succ n => simp [List.replicate_succ]
  rw [plainBlanks, noBlanks]
  dsimp only
  rw [Cursor.lineBreak_feed rfl, Cursor.next_feed]
  simp only [Cursor.peek, List.headD_cons, isBreak, beq_self_eq_true, Bool.true_or, if_true,
    noSeparator, Bool.false_eq_true, if_false]
  have enough : n < (List.replicate n ' ' ++ rest).length + 1 := by
    rw [List.length_append, List.length_replicate]
    omega
  rw [plainBreaks_spaces begins enough]
  simp [folded]

end Blanks

/-! ## Plain scalars as a whole -/

/-- One word of a plain scalar is read, and what follows it decides whether there are more. -/
theorem plainRest_word (outer fuel : Nat) {w tail : List Char} {i l k : Nat}
    {blanks' : List Char} {newLine' : Bool} {d : Cursor} (fit : PlainWord w) (ends : plainRun false tail = [])
    (next : plainBlanks ⟨tail, i + w.length, l, k + w.length⟩ = (blanks', newLine', d))
    (acc blanks : List Char) (newLine : Bool) :
    plainRest false outer (fuel + 1) acc blanks newLine ⟨w ++ tail, i, l, k⟩ =
      if blanks'.isEmpty || d.peek == '#' || d.column < outer then
        (⟨acc ++ blanks ++ w, newLine'⟩, d)
      else plainRest false outer fuel (acc ++ blanks ++ w) blanks' newLine' d := by
  have noComment : ((⟨w ++ tail, i, l, k⟩ : Cursor).peek == '#') = false := by
    obtain ⟨x, w, rfl⟩ := List.exists_cons_of_ne_nil fit.filled
    rw [beq_eq_false_iff_ne]
    exact fun h => fit.noComment (congrArg some h)
  have filled : w.isEmpty = false := List.isEmpty_eq_false_iff.2 fit.filled
  rw [plainRest, noComment]
  simp only [Bool.false_eq_true, if_false, plainRun_word fit.glyphs fit.noKey ends, filled]
  rw [Cursor.skip_inline fun x hx => .inr (fit.glyphs x hx), next]
  simp

/-- A phrase begins with a glyph, and with no comment. -/
theorem Phrase.begins {indent : Nat} {rs : List Run} {out : List Char} (h : Phrase rs)
    (laid : Laid indent false rs out) : ∃ x xs, out = x :: xs ∧ Glyph x ∧ x ≠ '#' := by
  have word {w more : List Char} (fit : PlainWord w) :
      ∃ x xs, w ++ more = x :: xs ∧ Glyph x ∧ x ≠ '#' := by
    obtain ⟨x, w, rfl⟩ := List.exists_cons_of_ne_nil fit.filled
    exact ⟨x, w ++ more, rfl, fit.glyphs x List.mem_cons_self,
      fun h => fit.noComment (congrArg some h)⟩
  cases h with
  | word fit | cons fit =>
    cases laid with
    | gap between => cases between
    | word => exact word fit

/-- The spaces between two words are written as they are, or as a broken line. -/
theorem Gap.of_spaces {indent n : Nat} {double : Bool} {g o : List Char}
    (h : Gap indent double g o) (hg : g = List.replicate n ' ') :
    o = g ∨ g = [' '] ∧ o = '\n' :: margin indent := by
  cases h with
  | spaces => exact .inl rfl
  | fold => exact .inr ⟨rfl, rfl⟩
  | @breaks m positive =>
    obtain ⟨m, rfl⟩ := Nat.exists_eq_succ_of_ne_zero (Nat.ne_of_gt positive)
    have feed : '\n' ∈ List.replicate n ' ' := hg ▸ by simp [List.replicate_succ]
    exact absurd (List.eq_of_mem_replicate feed) (by decide)

/-- Whatever the gap between two words is written as, it is read as the spaces of the text, and the
next word is met in a column that is fit for it. -/
theorem plainBlanks_of_gap {indent outer m : Nat} {o rest : List Char}
    (gap : Gap indent false (List.replicate m ' ') o) (indented : 0 < indent) (inner : outer ≤ indent)
    (begins : BeginsGlyph rest) (i l : Nat) {k : Nat} (column : outer ≤ k) :
    ∃ newLine i' l' k', outer ≤ k' ∧ plainBlanks ⟨o ++ rest, i, l, k⟩ =
      (List.replicate m ' ', newLine, ⟨rest, i', l', k'⟩) := by
  obtain rfl | ⟨single, rfl⟩ := gap.of_spaces rfl
  · exact ⟨_, _, _, _, Nat.le_add_right_of_le column, plainBlanks_spaces begins⟩
  · have noSeparator : indent = 0 → ∀ y ∈ rest.head?, y ≠ '-' ∧ y ≠ '.' := by omega
    rw [single]
    exact ⟨_, _, _, _, inner, plainBlanks_line begins noSeparator⟩

/-- A word of a plain scalar is read, and after the spaces behind it the scalar goes on. -/
theorem plainRest_goes {outer fuel m : Nat} {w tail : List Char} {i l k : Nat} {newLine' : Bool}
    {d : Cursor} (fit : PlainWord w) (filled : 0 < m) (ends : plainRun false tail = [])
    (next : plainBlanks ⟨tail, i + w.length, l, k + w.length⟩ = (List.replicate m ' ', newLine', d))
    (noComment : d.peek ≠ '#') (column : outer ≤ d.column) (acc blanks : List Char) (newLine : Bool) :
    plainRest false outer (fuel + 1) acc blanks newLine ⟨w ++ tail, i, l, k⟩ =
      plainRest false outer fuel (acc ++ blanks ++ w) (List.replicate m ' ') newLine' d := by
  rw [plainRest_word outer fuel fit ends next]
  simp [Nat.ne_of_gt filled, noComment, Nat.not_lt.2 column]

/-- A phrase is read up to the end of its last line. What follows it there is not indented as much as
the phrase would have to be. -/
theorem plainRest_of_phrase {indent outer n : Nat} {rs : List Run} {out rest : List Char}
    (phrase : Phrase rs) (laid : Laid indent false rs out) (inner : outer ≤ indent)
    (begins : BeginsGlyph rest) (inside : n = 0 → ∀ x ∈ rest.head?, x ≠ '-' ∧ x ≠ '.')
    (less : n < outer) {i l k : Nat} (column : outer ≤ k) {fuel : Nat} (enough : rs.length < fuel)
    (acc blanks : List Char) (newLine : Bool) :
    ∃ i' l', plainRest false outer fuel acc blanks newLine
        ⟨out ++ '\n' :: (List.replicate n ' ' ++ rest), i, l, k⟩ =
      (⟨acc ++ blanks ++ rs.flatMap Run.chars, true⟩, ⟨rest, i', l', n⟩) := by
  induction phrase generalizing out i l k fuel acc blanks newLine with
  | @word w fit =>
    obtain ⟨fuel, rfl⟩ : ∃ m, fuel = m + 1 := ⟨fuel - 1, by omega⟩
    cases laid with
    | gap between => cases between
    | word _ laid =>
      cases laid
      refine ⟨i + w.length + 1 + n, l + 1, ?_⟩
      simp only [Bool.false_eq_true, if_false, List.append_nil]
      rw [plainRest_word outer fuel fit (plainRun_blank (by decide)) (plainBlanks_line begins inside)]
      simp [less, Run.chars]
  | @cons w m rs fit filled phrase ih =>
    obtain ⟨fuel, rfl⟩ : ∃ m, fuel = m + 1 := ⟨fuel - 1, by omega⟩
    have enough' : rs.length < fuel := by
      simp only [List.length_cons] at enough
      omega
    cases laid with
    | gap between => cases between
    | word _ laid =>
      cases laid with
      | @gap _ o _ out _ gap laid =>
        obtain ⟨x, xs, rfl, glyph, noComment⟩ := phrase.begins laid
        obtain ⟨b, tail, rfl, blank⟩ := gap.begins_blank
        generalize hafter : '\n' :: (List.replicate n ' ' ++ rest) = after at ih ⊢
        have begins' : BeginsGlyph (x :: xs ++ after) := by simpa [BeginsGlyph] using glyph
        obtain ⟨newLine', i', l', k', column', next⟩ := plainBlanks_of_gap gap (by omega) inner begins'
          (i + w.length) l (Nat.le_add_right_of_le column)
        obtain ⟨i'', l'', hrest⟩ := ih laid (i := i') (l := l') column' enough'
          (acc ++ blanks ++ w) (List.replicate m ' ') newLine'
        have layout : (if false = true then doubledQuotes w else w) ++ (b :: tail ++ x :: xs) ++ after =
            w ++ (b :: tail ++ (x :: xs ++ after)) := by simp
        have ends : plainRun false (b :: tail ++ (x :: xs ++ after)) = [] := plainRun_blank blank
        refine ⟨i'', l'', ?_⟩
        rw [layout, plainRest_goes fit filled ends next noComment column', hrest]
        simp [Run.chars]

/-- Every run of a phrase is written. -/
theorem Phrase.length_le {indent : Nat} {rs : List Run} {out : List Char} (h : Phrase rs)
    (laid : Laid indent false rs out) : rs.length ≤ out.length := by
  have word {w : List Char} (fit : PlainWord w) : 0 < w.length := List.length_pos_iff.2 fit.filled
  induction h generalizing out with
  | word fit =>
    cases laid with
    | gap between => cases between
    | word => simpa using Nat.le_add_right_of_le (word fit)
  | cons fit filled phrase ih =>
    cases laid with
    | gap between => cases between
    | word _ laid =>
      cases laid with
      | gap _ gap laid =>
        obtain ⟨b, tail, rfl, -⟩ := gap.begins_blank
        have := ih laid
        have := word fit
        simp
        omega

/-- The plain scalar that a phrase is laid out as. -/
theorem plainScalar_of_phrase {indent outer n : Nat} {rs : List Run} {out rest : List Char}
    (phrase : Phrase rs) (laid : Laid indent false rs out) (inner : outer ≤ indent)
    (begins : BeginsGlyph rest) (inside : n = 0 → ∀ x ∈ rest.head?, x ≠ '-' ∧ x ≠ '.')
    (less : n < outer) (i l : Nat) {k : Nat} (column : outer ≤ k) :
    ∃ i' l', plainScalar false outer ⟨out ++ '\n' :: (List.replicate n ' ' ++ rest), i, l, k⟩ =
      (⟨rs.flatMap Run.chars, true⟩, ⟨rest, i', l', n⟩) := by
  have := phrase.length_le laid
  exact plainRest_of_phrase phrase laid inner begins inside less column (by simp; omega) [] [] false

/-- The plain scalar that is the name of a setting. -/
theorem plainScalar_of_name (outer : Nat) {w rest : List Char} {b : Char} (fit : PlainWord w)
    (blank : isBlankOrEnd b = true) (i l k : Nat) :
    plainScalar false outer ⟨w ++ ':' :: b :: rest, i, l, k⟩ =
      (⟨w, false⟩, ⟨':' :: b :: rest, i + w.length, l, k + w.length⟩) := by
  have ends : plainRun false (':' :: b :: rest) = [] := by simp [plainRun, endsPlain, blank]
  have none : plainBlanks ⟨':' :: b :: rest, i + w.length, l, k + w.length⟩ =
      ([], false, ⟨':' :: b :: rest, i + w.length, l, k + w.length⟩) := by
    rw [plainBlanks, Cursor.takeRun_nil (by simp)]
    simp [Cursor.peek, isBreak]
  rw [plainScalar, plainRest_word outer _ fit ends none]
  simp

end Pinhole.Yaml
