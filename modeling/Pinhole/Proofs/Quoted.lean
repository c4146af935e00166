import Pinhole.Proofs.Weaving
import Pinhole.Yaml.Scalar

/-!
# Reading quoted scalars back

A text that is woven between quotes (`Woven`) is read back as the text. The reader takes text and
blanks in turn: `quotedText_of_woven` takes the text up to the next pause, `quotedBlanks_of_gap` the
blanks of the pause, and `quotedRest_of_pause` goes on to the closing quote. Only the characters in
front of a cursor matter here, not its column.
-/

namespace Pinhole.Yaml

/-! ## Cursors -/

namespace Cursor

@[simp] theorem rest_next (c : Cursor) : c.next.rest = c.rest.tail := by
  unfold next
  split
  · simp [*]
  · rename_i h
    rw [h]
    dsimp only
    split_ifs <;> rfl

@[simp] theorem rest_skip (c : Cursor) (n : Nat) : (c.skip n).rest = c.rest.drop n := by
  induction n generalizing c with
  | zero => rfl
  | succ n ih => rw [skip, ih, rest_next, List.drop_tail]

theorem peek_of_rest {c : Cursor} {x : Char} {xs : List Char} (h : c.rest = x :: xs) :
    c.peek = x := by
  rw [peek, h]
  rfl

theorem takeRun_cons {c : Cursor} {p : Char → Bool} {x : Char} {xs : List Char}
    (h : c.rest = x :: xs) (hx : p x = true) :
    c.takeRun p = (x :: (c.next.takeRun p).1, (c.next.takeRun p).2) := by
  simp [takeRun, run, h, hx, skip]

/-- A run ends where nothing of its class follows. -/
theorem takeRun_nil {c : Cursor} {p : Char → Bool} (h : ∀ x ∈ c.rest.head?, p x = false) :
    c.takeRun p = ([], c) := by
  have none : c.rest.takeWhile p = [] := by
    cases hc : c.rest with
    | nil => rfl
    | cons x xs => exact List.takeWhile_cons_of_neg (by simp [h x (hc ▸ rfl)])
  simp [takeRun, run, none, skip]

/-- A run of a class is taken as a whole. -/
theorem takeRun_append {p : Char → Bool} {w rest : List Char} {c : Cursor} (h : c.rest = w ++ rest)
    (all : ∀ x ∈ w, p x = true) (ends : ∀ x ∈ rest.head?, p x = false) :
    c.takeRun p = (w, c.skip w.length) := by
  have whole : c.rest.takeWhile p = w := by
    rw [h, List.takeWhile_append_of_pos all]
    cases rest with
    | nil => simp
    | cons x xs => simp [ends x rfl]
  rw [takeRun, run, whole]

theorem lineBreak_feed {c : Cursor} {xs : List Char} (h : c.rest = '\n' :: xs) :
    c.lineBreak = (['\n'], c.next) := by
  have hpeek : c.peek = '\n' := peek_of_rest h
  simp [lineBreak, hpeek, isBreak]

/-- No document begins or ends at a character that is neither a dash nor a point. -/
theorem not_atSeparator {c : Cursor} (h : ∀ x ∈ c.rest.head?, x ≠ '-' ∧ x ≠ '.') :
    c.atSeparator = false := by
  cases hc : c.rest with
  | nil => simp [atSeparator, atMarker, hc]
  | cons x xs =>
    obtain ⟨dash, point⟩ := h x (hc ▸ rfl)
    simp [atSeparator, atMarker, hc, dash, point]

end Cursor

/-! ## One character of a quoted scalar -/

section Character

variable {double : Bool} {fuel : Nat} {acc : List Nat} {c : Cursor} {x : Char} {xs : List Char}

theorem takeRun_special (h : c.rest = x :: xs) (special : isQuotedSpecial x = true) :
    c.takeRun (!isQuotedSpecial ·) = ([], c) :=
  Cursor.takeRun_nil (by simp [h, special])

/-- A character that stands for itself is one of a run. -/
theorem quotedText_own (h : c.rest = x :: xs) (own : isQuotedSpecial x = false) :
    quotedText double (fuel + 1) acc c =
      quotedText double (fuel + 1) (acc ++ [x.toNat]) c.next := by
  rw [quotedText, quotedText, Cursor.takeRun_cons h (by simp [own])]
  simp [points]

/-- The marks of the other kind of quotes stand for themselves. -/
theorem quotedText_foreign (h : c.rest = x :: xs) (special : isQuotedSpecial x = true)
    (glyph : Glyph x) (own : x ∉ quoteMarks double) :
    quotedText double (fuel + 1) acc c = quotedText double fuel (acc ++ [x.toNat]) c.next := by
  have hpeek : c.peek = x := Cursor.peek_of_rest h
  have mark : x = '\'' ∨ x = '"' ∨ x = '\\' := by
    simpa [isQuotedSpecial, glyph.isBlankOrEnd, or_assoc] using special
  rw [quotedText, takeRun_special h special]
  cases double <;> rcases mark with rfl | rfl | rfl <;> simp [hpeek, quoteMarks, points] at own ⊢

/-- A glyph without another meaning is taken as itself. -/
theorem quotedText_glyph (fuel : Nat) (acc : List Nat) (h : c.rest = x :: xs) (glyph : Glyph x) 
    (own : x ∉ quoteMarks double) :
    ∃ f, fuel ≤ f ∧
      quotedText double (fuel + 1) acc c = quotedText double f (acc ++ [x.toNat]) c.next := by
  cases special : isQuotedSpecial x with
  | false => exact ⟨fuel + 1, Nat.le_succ fuel, quotedText_own h special⟩
  | true => exact ⟨fuel, Nat.le_refl fuel, quotedText_foreign h special glyph own⟩

/-- A single quote that is written twice is taken once. -/
theorem quotedText_quote (h : c.rest = '\'' :: '\'' :: xs) :
    quotedText false (fuel + 1) acc c = quotedText false fuel (acc ++ ['\''.toNat]) (c.skip 2) := by
  have hpeek : c.peek = '\'' ∧ c.peekAt 1 = '\'' := by simp [Cursor.peek, Cursor.peekAt, h]
  rw [quotedText, takeRun_special h (by decide)]
  simp [hpeek.1, hpeek.2, points]

/-- A backslash begins an escape. -/
theorem quotedText_escape {ps : List Nat} {d : Cursor} (h : c.rest = '\\' :: xs)
    (escape : quotedEscape c.next = .ok (ps, d)) :
    quotedText true (fuel + 1) acc c = quotedText true fuel (acc ++ ps) d := by
  have hpeek : c.peek = '\\' := Cursor.peek_of_rest h
  rw [quotedText, takeRun_special h (by decide)]
  simp only [hpeek, escape]
  simp [points]
  rfl

/-- A blank ends what is taken, and so does the closing quote. -/
theorem quotedText_stop (h : c.rest = x :: xs)
    (stop : isBlankOrEnd x = true ∨ x = (if double then '"' else '\'') ∧ xs.head? ≠ some '\'') :
    quotedText double (fuel + 1) acc c = .ok (acc, c) := by
  have hpeek : c.peek = x := Cursor.peek_of_rest h
  have next : c.peekAt 1 = xs.headD endMark := by simp [Cursor.peekAt, h]
  obtain blank | ⟨rfl, last⟩ := stop
  · have other {d : Char} (hd : isBlankOrEnd d = false) : x ≠ d := by
      rintro rfl
      rw [hd] at blank
      cases blank
    have special : isQuotedSpecial x = true := by simp [isQuotedSpecial, blank]
    rw [quotedText, takeRun_special h special]
    simp [hpeek, points, other (d := '\'') (by decide), other (d := '"') (by decide),
      other (d := '\\') (by decide)]
  · have noQuote : xs.head?.getD endMark ≠ '\'' := by
      cases xs with
      | nil => decide
      | cons d xs => simpa using last
    rw [quotedText, takeRun_special h (by cases double <;> decide)]
    cases double <;> simp [hpeek, next, noQuote, points]

end Character

/-! ## Breaks and blanks between quotes -/

/-- The line breaks in front of a margin are taken, and the margin is dropped. -/
theorem quotedBreaks_margin {indent fuel n : Nat} {xs : List Char} {c : Cursor}
    (indented : 0 < indent) (begins : BeginsGlyph xs) (enough : n < fuel) (acc : List Char)
    (h : c.rest = List.replicate n '\n' ++ margin indent ++ xs) :
    ∃ d, quotedBreaks fuel acc c = .ok (acc ++ List.replicate n '\n', d) ∧ d.rest = xs := by
  induction n generalizing fuel acc c with
  | zero =>
    obtain ⟨fuel, rfl⟩ := Nat.exists_eq_succ_of_ne_zero (Nat.ne_of_gt enough)
    have hrest : c.rest = margin indent ++ xs := by simpa using h
    have inside : c.atSeparator = false := by
      apply Cursor.not_atSeparator
      simp [hrest, List.head?_append, List.head?_replicate, Nat.ne_of_gt indented]
    have blanks : c.takeRun (fun x => x == ' ' || x == '\t') =
        (margin indent, c.skip (margin indent).length) := by
      refine Cursor.takeRun_append hrest (fun x hx => ?_) fun x hx => ?_
      · simp [List.eq_of_mem_replicate hx]
      · have glyph := begins x hx
        simp [glyph.ne (d := ' ') (by decide), glyph.ne (d := '\t') (by decide)]
    have text : isBreak (c.skip (margin indent).length).peek = false := by
      cases xs with
      | nil => simp [Cursor.peek, hrest]; decide
      | cons x xs => simpa [Cursor.peek, hrest] using (begins x rfl).isBreak
    refine ⟨c.skip (margin indent).length, ?_, by simp [hrest]⟩
    rw [quotedBreaks, inside, blanks]
    simp only [Bool.false_eq_true, if_false, text, List.replicate_zero, List.append_nil]
  | succ n ih =>
    obtain ⟨fuel, rfl⟩ := Nat.exists_eq_succ_of_ne_zero (Nat.ne_of_gt (Nat.zero_lt_of_lt enough))
    have hrest : c.rest = '\n' :: (List.replicate n '\n' ++ margin indent ++ xs) := by
      simpa [List.replicate_succ] using h
    have inside : c.atSeparator = false := Cursor.not_atSeparator (by simp [hrest])
    have noBlanks : c.takeRun (fun x => x == ' ' || x == '\t') = ([], c) :=
      Cursor.takeRun_nil (by simp [hrest])
    have feed : isBreak c.peek = true := by rw [Cursor.peek_of_rest hrest]; decide
    obtain ⟨d, hd, rest⟩ := ih (c := c.next) (Nat.lt_of_succ_lt_succ enough) (acc ++ ['\n'])
      (by simp [hrest])
    refine ⟨d, ?_, rest⟩
    rw [quotedBreaks, inside, noBlanks]
    simp only [Bool.false_eq_true, if_false, feed, if_true, Cursor.lineBreak_feed hrest]
    rw [hd]
    simp [List.replicate_succ]

/-- What stands between two words is read as the blanks of the text. -/
theorem quotedBlanks_of_gap {indent : Nat} {double : Bool} {g o xs : List Char} {c : Cursor}
    (indented : 0 < indent) (gap : Gap indent double g o) (filled : xs ≠ [])
    (begins : BeginsGlyph xs) (h : c.rest = o ++ xs) :
    ∃ d, quotedBlanks c = .ok (g, d) ∧ d.rest = xs := by
  -- A gap with a line break is read from its second character on.
  have lines (n : Nat) (h : c.rest = '\n' :: (List.replicate n '\n' ++ margin indent ++ xs)) :
      ∃ d, quotedBlanks c = .ok (folded ['\n'] (List.replicate n '\n'), d) ∧ d.rest = xs := by
    have noBlanks : c.takeRun (fun x => x == ' ' || x == '\t') = ([], c) :=
      Cursor.takeRun_nil (by simp [h])
    have feed : isBreak c.peek = true := by rw [Cursor.peek_of_rest h]; decide
    have enough : n < c.next.rest.length + 1 := by
      simp only [Cursor.rest_next, h, List.tail_cons, List.length_append, List.length_replicate]
      omega
    obtain ⟨d, hd, rest⟩ := quotedBreaks_margin (c := c.next) indented begins enough []
      (by simp [h])
    refine ⟨d, ?_, rest⟩
    rw [quotedBlanks, noBlanks]
    simp only [h, List.isEmpty_cons, Bool.false_eq_true, if_false, feed, if_true,
      Cursor.lineBreak_feed h, hd]
    rfl
  cases gap with
  | @spaces _ n positive =>
    obtain ⟨x, xs, rfl⟩ := List.exists_cons_of_ne_nil filled
    have glyph : Glyph x := begins x rfl
    have blanks : c.takeRun (fun x => x == ' ' || x == '\t') =
        (List.replicate n ' ', c.skip (List.replicate n ' ').length) := by
      refine Cursor.takeRun_append h (fun x hx => ?_) ?_
      · simp [List.eq_of_mem_replicate hx]
      · simp [glyph.ne (d := ' ') (by decide), glyph.ne (d := '\t') (by decide)]
    have rest : (c.skip (List.replicate n ' ').length).rest = x :: xs := by simp [h]
    refine ⟨c.skip (List.replicate n ' ').length, ?_, rest⟩
    rw [quotedBlanks, blanks]
    simp only [rest, List.isEmpty_cons, Bool.false_eq_true, if_false, Cursor.peek, List.headD_cons,
      glyph.isBreak]
  | fold => exact lines 0 (by simpa using h)
  | @breaks n positive =>
    obtain ⟨d, hd, rest⟩ := lines n (by simpa [List.replicate_succ] using h)
    refine ⟨d, ?_, rest⟩
    simpa [folded, Nat.ne_of_gt positive] using hd

/-! ## Escapes -/

theorem shortEscape?_of_letter {c letter : Char} (h : escapeLetter? c = some letter) :
    shortEscape? letter = some c := by
  have of_code (n : Nat) (code : c.toNat = n) : c = Char.ofNat n := by
    rw [← code, Char.ofNat_toNat]
  unfold escapeLetter? at h
  split at h <;> cases h
  all_goals
    rename_i code
    rw [of_code _ code]
    rfl

theorem backslash_of_escape {x : Char} {e : List Char} (h : escape? x = some e) :
    ∃ e', e = '\\' :: e' := by
  obtain ⟨letter, -, rfl⟩ | ⟨mark, width, -, -, rfl⟩ := escape?_eq_some h <;> exact ⟨_, rfl⟩

/-- The digits of a numeric escape are read as their number. -/
theorem numericEscape_hexDigits {width n : Nat} {xs : List Char} {c : Cursor}
    (short : n < Nat.pow 16 width) (valid : n ≤ 0x10FFFF)
    (h : c.rest = Text.hexDigits .upper width n ++ xs) :
    numericEscape width c = .ok (n, c.skip width) := by
  have digits : c.rest.take width = Text.hexDigits .upper width n := by
    rw [h, List.take_left' (Text.length_hexDigits _ _ _)]
  rw [numericEscape, digits]
  simp only [Text.length_hexDigits, Nat.lt_irrefl, if_false, Text.hexNumber?_hexDigits _ short,
    valid, if_true]

/-- An escape is read as the character that it stands for. -/
theorem quotedEscape_of_escape {x : Char} {e xs : List Char} {c : Cursor}
    (escape : escape? x = some e) (h : c.rest = e ++ xs) :
    ∃ d, quotedEscape c.next = .ok ([x.toNat], d) ∧ d.rest = xs := by
  obtain ⟨letter, hletter, rfl⟩ | ⟨mark, width, hmark, short, rfl⟩ := escape?_eq_some escape
  · have hrest : c.next.rest = letter :: xs := by simp [h]
    have hpeek : c.next.peek = letter := Cursor.peek_of_rest hrest
    refine ⟨c.next.next, ?_, by simp [h]⟩
    rw [quotedEscape, hpeek, shortEscape?_of_letter hletter]
  · have hrest : c.next.rest = mark :: (Text.hexDigits .upper width x.toNat ++ xs) := by simp [h]
    have hpeek : c.next.peek = mark := Cursor.peek_of_rest hrest
    have valid : x.toNat ≤ 0x10FFFF := by
      have := x.valid
      simp only [UInt32.isValidChar, Nat.isValidChar] at this
      simp only [Char.toNat]
      omega
    have wide : shortEscape? mark = none ∧ escapeWidth? mark = some width := by
      simp only [numericMarks, List.mem_cons, Prod.mk.injEq, List.not_mem_nil, or_false] at hmark
      rcases hmark with ⟨rfl, rfl⟩ | ⟨rfl, rfl⟩ | ⟨rfl, rfl⟩ <;> exact ⟨rfl, rfl⟩
    have digits : c.next.next.rest = Text.hexDigits .upper width x.toNat ++ xs := by simp [h]
    refine ⟨c.next.next.skip width, ?_, by simp [h]⟩
    rw [quotedEscape, hpeek, wide.1, wide.2]
    simp only [numericEscape_hexDigits short valid digits]
    rfl

/-- A broken line goes on after its margin. -/
theorem quotedEscape_broken {indent : Nat} {xs : List Char} {c : Cursor} (indented : 0 < indent)
    (begins : BeginsGlyph xs) (h : c.rest = '\\' :: '\n' :: margin indent ++ xs) :
    ∃ d, quotedEscape c.next = .ok ([], d) ∧ d.rest = xs := by
  have hrest : c.next.rest = '\n' :: (margin indent ++ xs) := by simp [h]
  have hpeek : c.next.peek = '\n' := Cursor.peek_of_rest hrest
  have enough : 0 < c.next.rest.length + 1 := Nat.succ_pos _
  obtain ⟨d, hd, rest⟩ := quotedBreaks_margin (c := c.next.next) indented begins enough []
    (by simp [h])
  refine ⟨d, ?_, rest⟩
  rw [quotedEscape, hpeek, Cursor.lineBreak_feed hrest]
  have codes : shortEscape? '\n' = none ∧ escapeWidth? '\n' = none := ⟨rfl, rfl⟩
  simp only [codes, hd]
  rfl

/-! ## Quoted scalars as a whole -/

/-- A text between quotes where a reader of text has to stop: at its end, or at a gap. -/
inductive Pause (indent : Nat) (double : Bool) : List Char → List Char → Prop
  | nil : Pause indent double [] []
  | gap {g o cs out : List Char} (gap : Gap indent double g o) (begins : BeginsGlyph out)
      (rest : Woven indent double cs out) : Pause indent double (g ++ cs) (o ++ out)

/-- The quote around a text. -/
abbrev quoteOf (double : Bool) : Char := if double then '"' else '\''

theorem glyph_quoteOf (double : Bool) : Glyph (quoteOf double) := by cases double <;> decide

theorem BeginsGlyph.append {cs ds : List Char} (h : BeginsGlyph cs) (h' : BeginsGlyph ds) :
    BeginsGlyph (cs ++ ds) := by
  cases cs with
  | nil => exact h'
  | cons c cs => exact h

/-- A gap begins with a blank. -/
theorem Gap.begins_blank {indent : Nat} {double : Bool} {g o : List Char}
    (h : Gap indent double g o) : ∃ x xs, o = x :: xs ∧ isBlankOrEnd x = true := by
  cases h with
  | spaces _ filled =>
    obtain ⟨n, rfl⟩ := Nat.exists_eq_succ_of_ne_zero (Nat.ne_of_gt filled)
    exact ⟨' ', _, List.replicate_succ, by decide⟩
  | fold => exact ⟨'\n', _, rfl, by decide⟩
  | breaks => exact ⟨'\n', _, rfl, by decide⟩

/-- What follows a closing quote is not another one. -/
def Closes (tail : List Char) : Prop := tail.head? ≠ some '\''

section Whole

variable {indent : Nat} {double : Bool} {cs out tail : List Char} {fuel : Nat} {c : Cursor}

/-- Text between quotes is taken from a cursor up to a pause of the text. -/
def Takes (indent : Nat) (double : Bool) (tail : List Char) (fuel : Nat) (acc : List Nat)
    (c : Cursor) (cs out : List Char) : Prop :=
  ∃ text left later d, cs = text ++ left ∧ Pause indent double left later ∧
    later.length ≤ out.length ∧ d.rest = later ++ quoteOf double :: tail ∧
    quotedText double fuel acc c = .ok (acc ++ points text, d)

/-- Some text is taken before the rest of it. -/
theorem Takes.step (front more : List Char) {fuel' : Nat} {acc : List Nat} {d : Cursor}
    (step : quotedText double fuel acc c = quotedText double fuel' (acc ++ points front) d)
    (h : Takes indent double tail fuel' (acc ++ points front) d cs out) :
    Takes indent double tail fuel acc c (front ++ cs) (more ++ out) := by
  obtain ⟨text, left, later, e, rfl, pause, shorter, rest, heq⟩ := h
  refine ⟨front ++ text, left, later, e, (List.append_assoc _ _ _).symm, pause, ?_, rest, ?_⟩
  · exact Nat.le_trans shorter (by simp)
  · rw [step, heq, points, points, points, List.map_append, List.append_assoc]

/-- A broken line is taken before what follows its margin. -/
theorem Takes.broken {acc : List Nat} (indented : 0 < indent) (begins : BeginsGlyph out)
    (h : c.rest = '\\' :: '\n' :: margin indent ++ out ++ quoteOf true :: tail)
    (rest : ∀ d : Cursor, d.rest = out ++ quoteOf true :: tail →
      Takes indent true tail fuel acc d cs out) :
    Takes indent true tail (fuel + 1) acc c cs ('\\' :: '\n' :: margin indent ++ out) := by
  have begins' : BeginsGlyph (out ++ quoteOf true :: tail) :=
    begins.append (by simpa [BeginsGlyph] using glyph_quoteOf true)
  rw [List.append_assoc] at h
  obtain ⟨d, hd, rest'⟩ := quotedEscape_broken indented begins' h
  refine .step [] _ (quotedText_escape h hd) ?_
  rw [points, List.map_nil, List.append_nil]
  exact rest d rest'

/-- Text between quotes is taken up to the next pause. -/
theorem quotedText_of_woven (indented : 0 < indent) (woven : Woven indent double cs out)
    (closes : Closes tail) (enough : out.length < fuel) (acc : List Nat)
    (h : c.rest = out ++ quoteOf double :: tail) :
    Takes indent double tail fuel acc c cs out := by
  induction woven generalizing fuel acc c with
  | nil =>
    obtain ⟨fuel, rfl⟩ : ∃ n, fuel = n + 1 := ⟨fuel - 1, by omega⟩
    exact ⟨[], [], [], c, rfl, .nil, Nat.le_refl _, h,
      by simpa [points] using quotedText_stop h (.inr ⟨rfl, closes⟩)⟩
  | gap gap begins rest =>
    obtain ⟨fuel, rfl⟩ : ∃ n, fuel = n + 1 := ⟨fuel - 1, by omega⟩
    obtain ⟨x, xs, rfl, blank⟩ := gap.begins_blank
    exact ⟨[], _, _, c, rfl, .gap gap begins rest, Nat.le_refl _, h,
      by simpa [points] using quotedText_stop h (.inl blank)⟩
  | @glyph double x cs out glyph own rest ih =>
    obtain ⟨fuel, rfl⟩ : ∃ n, fuel = n + 1 := ⟨fuel - 1, by omega⟩
    obtain ⟨f, le, step⟩ := quotedText_glyph fuel acc h glyph own
    have enough' : out.length < f := by simp at enough; omega
    exact .step [x] [x] step (ih enough' _ (by simp [h]))
  | @quote cs out rest ih =>
    obtain ⟨fuel, rfl⟩ : ∃ n, fuel = n + 1 := ⟨fuel - 1, by omega⟩
    have enough' : out.length < fuel := by simp at enough; omega
    exact .step ['\''] ['\'', '\''] (quotedText_quote h) (ih enough' _ (by simp [h]))
  | @escaped x e cs out escape rest ih =>
    obtain ⟨fuel, rfl⟩ : ∃ n, fuel = n + 1 := ⟨fuel - 1, by omega⟩
    rw [List.append_assoc] at h
    obtain ⟨d, hd, rest'⟩ := quotedEscape_of_escape escape h
    obtain ⟨e', rfl⟩ := backslash_of_escape escape
    have enough' : out.length < fuel := by simp at enough; omega
    exact .step [x] _ (quotedText_escape h hd) (ih enough' _ rest')
  | broken begins rest ih =>
    obtain ⟨fuel, rfl⟩ : ∃ n, fuel = n + 1 := ⟨fuel - 1, by omega⟩
    exact .broken indented begins h fun d hd => ih (by simp at enough; omega) _ hd
  | @brokenSpace cs out rest ih =>
    obtain ⟨fuel, rfl⟩ : ∃ n, fuel = n + 2 := ⟨fuel - 2, by simp at enough; omega⟩
    -- The space is escaped, as a letter would be.
    refine .broken indented (by simp [BeginsGlyph, Glyph]) h fun d hd => ?_
    have space : d.next.peek = ' ' := Cursor.peek_of_rest (by rw [Cursor.rest_next, hd]; rfl)
    have escape : quotedEscape d.next = .ok (points [' '], d.next.next) := by
      rw [quotedEscape, space]
      rfl
    exact .step [' '] ['\\', ' '] (quotedText_escape hd escape)
      (ih (by simp at enough; omega) _ (by simp [hd]))

/-- From a pause on, a quoted scalar is taken up to its closing quote. -/
theorem quotedRest_of_pause (indented : 0 < indent) (pause : Pause indent double cs out)
    (closes : Closes tail) (enough : out.length < fuel) (acc : List Nat)
    (h : c.rest = out ++ quoteOf double :: tail) :
    ∃ d, quotedRest double fuel acc c = .ok (acc ++ points cs, d) ∧ d.rest = tail := by
  induction fuel generalizing acc c cs out with
  | zero => exact absurd enough (Nat.not_lt_zero _)
  | succ fuel ih =>
    cases pause with
    | nil =>
      have hpeek : c.peek = quoteOf double := Cursor.peek_of_rest h
      refine ⟨c.next, ?_, by simp [h]⟩
      rw [quotedRest, hpeek]
      simp [points]
    | @gap g o cs out gap begins woven =>
      obtain ⟨x, xs, rfl, blank⟩ := gap.begins_blank
      have notClosed : (c.peek == quoteOf double) = false := by
        rw [Cursor.peek_of_rest h, beq_eq_false_iff_ne]
        rintro rfl
        rw [(glyph_quoteOf double).isBlankOrEnd] at blank
        cases blank
      have begins' : BeginsGlyph (out ++ quoteOf double :: tail) :=
        begins.append (by simpa [BeginsGlyph] using glyph_quoteOf double)
      rw [List.append_assoc] at h
      obtain ⟨d, hblanks, hd⟩ := quotedBlanks_of_gap indented gap (by simp) begins' h
      have room : out.length < d.rest.length + 1 := by
        rw [hd, List.length_append]
        omega
      obtain ⟨text, left, later, e, rfl, pause, shorter, he, htext⟩ :=
        quotedText_of_woven indented woven closes room [] hd
      have enough' : later.length < fuel := by simp at enough; omega
      obtain ⟨f, hf, ends⟩ := ih pause enough' (acc ++ points g ++ points text) he
      refine ⟨f, ?_, ends⟩
      rw [quotedRest, notClosed]
      simp only [Bool.false_eq_true, if_false, hblanks, htext, bind, Except.bind, List.nil_append, hf]
      simp [points]

/-- A quoted scalar is read as the text that is woven in it. -/
theorem quotedScalar_of_woven (indented : 0 < indent) (woven : Woven indent double cs out)
    (closes : Closes tail) (h : c.rest = quoteOf double :: out ++ quoteOf double :: tail) :
    ∃ d, quotedScalar double c = .ok (⟨String.ofList cs, false⟩, d) ∧ d.rest = tail := by
  have hrest : c.next.rest = out ++ quoteOf double :: tail := by simp [h]
  have room : out.length < c.next.rest.length + 1 := by
    rw [hrest, List.length_append]
    omega
  obtain ⟨text, left, later, d, rfl, pause, -, hd, htext⟩ :=
    quotedText_of_woven indented woven closes room [] hrest
  have room' : later.length < d.rest.length + 1 := by
    rw [hd, List.length_append]
    omega
  obtain ⟨e, he, ends⟩ := quotedRest_of_pause indented pause closes room' (points text) hd
  refine ⟨e, ?_, ends⟩
  rw [quotedScalar]
  simp only [htext, bind, Except.bind, List.nil_append, he]
  rw [points, points, ← List.map_append, Text.Spelling.ofPoints_toNat]
  rfl

end Whole

end Pinhole.Yaml
