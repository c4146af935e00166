import Pinhole.Proofs.Plain
import Pinhole.Yaml.Lexer

/-!
# From lines back to tokens

A setting on its line is two tokens' worth of scalars: its name, which the colon behind it makes a key,
and its value. `step_plain`, `step_quoted`, `step_colon` and `step_end` say what one step of the lexer
reads; `Reads` puts steps together and keeps count of the characters, so that the fuel of the lexer is
never in question. Between two lines the lexer `Stands` in front of the next one, wherever the value
before it has ended: behind a quoted value the line break is still to come, behind a plain one the
reader has already gone on to the next name. `reads_key` and `reads_value` lead from one such place to
the next.
-/

namespace Pinhole.Yaml

namespace Lexer

/-- A lexer outside of all brackets at which no key has begun. -/
abbrev free (c : Cursor) (ts : List Token) (indents : List Nat) (keyAllowed : Bool) : Lexer :=
  { cursor := c, tokens := ts.toArray, indents, keyAllowed }

/-- A lexer outside of all brackets behind a name that may turn out to be a key. -/
abbrev named (c : Cursor) (ts : List Token) (indents : List Nat) (key : KeyPlace) : Lexer :=
  { cursor := c, tokens := ts.toArray, indents, keyAllowed := false, keys := [(0, key)] }

/-- The column of the innermost of some block collections; −1 outside of all. -/
def innermost (indents : List Nat) : Int := indents.head?.elim (-1) Int.ofNat

theorem indent_eq (l : Lexer) : l.indent = innermost l.indents := by
  rw [indent, innermost]
  cases l.indents <;> rfl

section Step

variable {l : Lexer} {c : Cursor} {ts ts' : List Token} {indents indents' : List Nat} {allowed : Bool}

theorem dropStale_free : (free c ts indents allowed).dropStale = .ok (free c ts indents allowed) := rfl

theorem unwind_free {column : Int}
    (closes : closeBlocks column indents ts.toArray = (indents', ts'.toArray)) :
    (free c ts indents allowed).unwind column = free c ts' indents' allowed := by
  simp [unwind, closes]

/-- A plain scalar begins at a cursor outside of brackets. -/
structure BeginsPlain (c : Cursor) : Prop where
  glyph : Glyph c.peek
  own : isLeadingIndicator c.peek = false
  noMark : c.peek = '-' ∨ c.peek = '?' ∨ c.peek = ':' → isBlankOrEnd (c.peekAt 1) = false
  inside : c.column = 0 → c.peek ≠ '-' ∧ c.peek ≠ '.'

theorem rest_ne_nil_of_glyph (glyph : Glyph c.peek) : c.rest ≠ [] := by
  intro hc
  rw [Cursor.peek, hc] at glyph
  exact absurd glyph (by decide)

theorem peek_of_atMarker {mark : Char} (h : c.atMarker mark = true) : c.peek = mark := by
  simp only [Cursor.atMarker, Bool.and_eq_true, beq_iff_eq] at h
  cases hc : c.rest with
  | nil => simp [hc] at h
  | cons x xs =>
    rw [Cursor.peek_of_rest hc]
    simpa [hc] using (List.cons.inj (hc ▸ h.1 : (x :: xs).take 3 = _)).1

/-- The next token is a plain scalar. -/
theorem step_plain
    (arrives : l.toNextToken (l.cursor.rest.length + 1) = free c ts indents allowed)
    (closes : closeBlocks c.column indents ts.toArray = (indents', ts'.toArray))
    (begins : BeginsPlain c) : l.step = (free c ts' indents' allowed).plainContent := by
  have own := begins.own
  simp [isLeadingIndicator] at own
  have noStart : ¬(c.column = 0 ∧ c.atMarker '-' = true) :=
    fun h => (begins.inside h.1).1 (peek_of_atMarker h.2)
  have noEnd : ¬(c.column = 0 ∧ c.atMarker '.' = true) :=
    fun h => (begins.inside h.1).2 (peek_of_atMarker h.2)
  have dash : ¬(c.peek = '-' ∧ isBlankOrEnd (c.peekAt 1) = true) :=
    fun h => by simp [begins.noMark (.inl h.1)] at h
  have question : ¬(c.peek = '?' ∧ isBlankOrEnd (c.peekAt 1) = true) :=
    fun h => by simp [begins.noMark (.inr (.inl h.1))] at h
  have colon : ¬(c.peek = ':' ∧ isBlankOrEnd (c.peekAt 1) = true) :=
    fun h => by simp [begins.noMark (.inr (.inr h.1))] at h
  have plain : (free c ts' indents' allowed).atPlain = true := by
    by_cases mark : c.peek = '-' ∨ c.peek = '?' ∨ c.peek = ':'
    · simp [atPlain, peek, begins.noMark mark, mark]
    · push Not at mark
      simp [atPlain, peek, begins.glyph.isBlankOrEnd, own, mark]
  rw [step, arrives, dropStale_free]
  simp only [bind, Except.bind]
  rw [unwind_free closes]
  have filled := rest_ne_nil_of_glyph begins.glyph
  simp [peek, filled, own, noStart, noEnd, dash, question, colon, plain]

/-- The next token is a plain scalar where no key may begin. -/
theorem step_plain_value {s : PlainScalar} {d : Cursor}
    (arrives : l.toNextToken (l.cursor.rest.length + 1) = free c ts indents false)
    (closes : closeBlocks c.column indents ts.toArray = (indents', ts'.toArray))
    (begins : BeginsPlain c)
    (reads : plainScalar false ((free c ts' indents' false).indent + 1).toNat c = (s, d)) :
    l.step = .ok (free d (ts' ++ [.scalar .plain ⟨String.ofList s.content, false⟩]) indents'
      s.newLine) := by
  rw [step_plain arrives closes begins, plainContent, saveKey]
  simp only [Bool.false_eq_true, if_false, pure, Except.pure, bind, Except.bind]
  simp only [bne_self_eq_false, reads]
  simp [push]

/-- The next token is a plain scalar where a key may begin. -/
theorem step_plain_key {w : List Char} {d : Cursor}
    (arrives : l.toNextToken (l.cursor.rest.length + 1) = free c ts indents true)
    (closes : closeBlocks c.column indents ts.toArray = (indents', ts'.toArray))
    (begins : BeginsPlain c) (reads : ∀ outer, plainScalar false outer c = (⟨w, false⟩, d)) :
    ∃ required, l.step = .ok (named d (ts' ++ [.scalar .plain ⟨String.ofList w, false⟩]) indents'
      ⟨ts'.length, required, c.index, c.line, c.column⟩) := by
  refine ⟨(free c ts' indents' true).indent == c.column, ?_⟩
  rw [step_plain arrives closes begins, plainContent, saveKey]
  simp only [if_true, dropKey, keyPlace?, List.lookup_nil, pure, Except.pure, bind, Except.bind]
  simp only [bne_self_eq_false, reads]
  simp [push]

/-- The next token is a quoted scalar where no key may begin. -/
theorem step_quoted (double : Bool) {s : Text.Spelling} {d : Cursor}
    (arrives : l.toNextToken (l.cursor.rest.length + 1) = free c ts indents false)
    (closes : closeBlocks c.column indents ts.toArray = (indents', ts'.toArray))
    (quote : c.peek = quoteOf double) (reads : quotedScalar double c = .ok (s, d)) :
    l.step = .ok (free d (ts' ++ [.scalar (if double then .double else .single) s]) indents' false) := by
  have noStart : ¬(c.column = 0 ∧ c.atMarker '-' = true) := by
    rintro ⟨-, marker⟩
    rw [peek_of_atMarker marker] at quote
    cases double <;> cases quote
  have noEnd : ¬(c.column = 0 ∧ c.atMarker '.' = true) := by
    rintro ⟨-, marker⟩
    rw [peek_of_atMarker marker] at quote
    cases double <;> cases quote
  have filled : c.rest ≠ [] := rest_ne_nil_of_glyph (quote ▸ glyph_quoteOf double)
  rw [step, arrives, dropStale_free]
  simp only [bind, Except.bind]
  rw [unwind_free closes]
  cases double with
  | false =>
    have quote : c.peek = '\'' := quote
    simp [peek, filled, quote, noStart, noEnd, content, saveKey, reads, Except.map, push]
  | true =>
    have quote : c.peek = '"' := quote
    simp [peek, filled, quote, noStart, noEnd, content, saveKey, reads, Except.map, push]

/-! ### Blanks in front of a token -/

theorem peek_ne_sign (h : c.rest.head? ≠ some '#') : c.peek ≠ '#' := by
  cases hc : c.rest with
  | nil =>
    rw [Cursor.peek, hc]
    exact (by decide : endMark ≠ '#')
  | cons x xs =>
    rw [Cursor.peek_of_rest hc]
    exact fun hx => h (by rw [hc, hx]; rfl)

/-- A token at the cursor is met at once. -/
theorem toNextToken_here (fuel : Nat) (begins : BeginsGlyph l.cursor.rest)
    (noComment : l.cursor.rest.head? ≠ some '#') : l.toNextToken (fuel + 1) = l := by
  obtain ⟨-, text⟩ := begins.peek
  have still : l.cursor.skipSpaces = l.cursor := by
    rw [Cursor.skipSpaces, Cursor.takeRun_nil]
    intro x hx
    exact beq_false_of_ne ((begins x hx).ne (by decide))
  rw [toNextToken, still]
  simp [peek_ne_sign noComment, text]

/-- The spaces in front of a token are passed over. -/
theorem toNextToken_spaces (fuel : Nat) {m i n k : Nat} {rest : List Char} (begins : BeginsGlyph rest)
    (noComment : rest.head? ≠ some '#') :
    (free ⟨List.replicate m ' ' ++ rest, i, n, k⟩ ts indents allowed).toNextToken (fuel + 1) =
      free ⟨rest, i + m, n, k + m⟩ ts indents allowed := by
  obtain ⟨-, text⟩ := BeginsGlyph.peek (c := ⟨rest, i + m, n, k + m⟩) begins
  have sign : (⟨rest, i + m, n, k + m⟩ : Cursor).peek ≠ '#' := peek_ne_sign noComment
  rw [toNextToken, Cursor.skipSpaces, Cursor.takeRun_spaces begins.noSpace]
  simp [sign, text]

/-- The end of a line is passed over, and a key may begin on the next one. -/
theorem toNextToken_line (fuel : Nat) {m i n k : Nat} {rest : List Char} (begins : BeginsGlyph rest)
    (noComment : rest.head? ≠ some '#') :
    (free ⟨'\n' :: (List.replicate m ' ' ++ rest), i, n, k⟩ ts indents allowed).toNextToken
        (fuel + 2) =
      free ⟨rest, i + 1 + m, n + 1, m⟩ ts indents true := by
  generalize hrest : '\n' :: (List.replicate m ' ' ++ rest) = line
  have hpeek : (⟨line, i, n, k⟩ : Cursor).peek = '\n' := by rw [← hrest]; rfl
  have still : (⟨line, i, n, k⟩ : Cursor).skipSpaces = ⟨line, i, n, k⟩ := by
    rw [Cursor.skipSpaces, Cursor.takeRun_nil (by simp [← hrest])]
  have feed : isBreak '\n' = true := by decide
  rw [toNextToken, still]
  simp only [hpeek, feed, if_true, show ('\n' == '#') = false by decide, Bool.false_eq_true, if_false]
  rw [← hrest, Cursor.lineBreak_feed rfl, Cursor.next_feed]
  have next : (free ⟨List.replicate m ' ' ++ rest, i + 1, n + 1, 0⟩ ts indents true).toNextToken
      (fuel + 1) = free ⟨rest, i + 1 + m, n + 1, 0 + m⟩ ts indents true :=
    toNextToken_spaces fuel begins noComment
  rw [Nat.zero_add] at next
  simpa using next

/-! ### Keys -/

theorem closeBlocks_of_le {column : Int} (h : ∀ m ∈ indents.head?, (m : Int) ≤ column)
    (tokens : Array Token) : closeBlocks column indents tokens = (indents, tokens) := by
  cases indents with
  | nil => rfl
  | cons m ms => simp [closeBlocks, Int.not_lt.2 (h m rfl)]

theorem le_of_closeBlocks {column : Int} {tokens tokens' : Array Token}
    (h : closeBlocks column indents tokens = (indents', tokens')) :
    ∀ m ∈ indents'.head?, (m : Int) ≤ column := by
  induction indents generalizing tokens with
  | nil =>
    cases h
    exact nofun
  | cons m ms ih =>
    rw [closeBlocks] at h
    split_ifs at h with deeper
    · exact ih h
    · cases h
      simpa using Int.not_lt.1 deeper

/-- The tokens that a key puts in front of its name. -/
def keyTokens (opens : Bool) : List Token := if opens then [.blockMappingStart, .key] else [.key]

/-- The colon after a name makes a key of it. -/
theorem step_colon {i j n k column : Nat} {b : Char} {rest : List Char} {name : Token}
    {required : Bool} (blank : isBlankOrEnd b = true) (short : i - j ≤ maxKeyLength)
    (within : ∀ m ∈ indents.head?, (m : Int) ≤ k) :
    (named ⟨':' :: b :: rest, i, n, k⟩ (ts ++ [name]) indents
        ⟨ts.length, required, j, n, column⟩).step =
      .ok (free ⟨b :: rest, i + 1, n, k + 1⟩
        (ts ++ keyTokens (innermost indents < column) ++ [name, .value])
        (if innermost indents < column then column :: indents else indents) false) := by
  generalize hl : named ⟨':' :: b :: rest, i, n, k⟩ (ts ++ [name]) indents
    ⟨ts.length, required, j, n, column⟩ = l
  have here : l.toNextToken (l.cursor.rest.length + 1) = l := by
    apply toNextToken_here <;> rw [← hl]
    · simp [BeginsGlyph, Glyph]
    · simp
  have fresh : l.dropStale = .ok l := by
    rw [← hl]
    simp [dropStale, isStale, Nat.not_lt.2 short]
  have still : l.unwind l.cursor.column = l := by
    rw [unwind, ← hl]
    simp [closeBlocks_of_le within]
  have next : (⟨':' :: b :: rest, i, n, k⟩ : Cursor).next = ⟨b :: rest, i + 1, n, k + 1⟩ :=
    Cursor.next_inline (.inr (by decide))
  rw [step, here, fresh]
  simp only [bind, Except.bind]
  rw [still, ← hl]
  simp [peek, Cursor.peek, Cursor.peekAt, Cursor.atMarker, blank, valueMark, keyPlace?]
  simp only [pure, Except.pure, valueOfKey, pushOver, push, Cursor.skip, next, otherKeys, indent_eq,
    beq_self_eq_true, Bool.true_and]
  simp [keyTokens]

/-- A document ends with its last line, and so do the collections in it. -/
theorem step_end {i n k : Nat} {ts'' : List Token}
    (arrives : l.toNextToken (l.cursor.rest.length + 1) = free ⟨[], i, n, k⟩ ts indents allowed)
    (closes : closeBlocks k indents ts.toArray = (indents', ts'.toArray))
    (closesAll : closeBlocks (-1) indents' ts'.toArray = ([], ts''.toArray)) :
    l.step = .ok (free ⟨[], i, n, k⟩ (ts'' ++ [.streamEnd]) [] false) := by
  rw [step, arrives, dropStale_free]
  simp only [bind, Except.bind]
  rw [unwind_free closes]
  simp only [List.isEmpty_nil, if_true, documentToken]
  rw [unwind_free closesAll]
  simp [dropKey, keyPlace?, push, bind, Except.bind, pure, Except.pure]

end Step

/-! ## Reading on -/

/-- Reading leads from one state of a lexer to another one, and takes no more steps than there are
characters in between. -/
def Reads (l l' : Lexer) : Prop :=
  ∃ n, n + l'.cursor.rest.length ≤ l.cursor.rest.length ∧
    ∀ fuel, toEnd (fuel + n) none l = toEnd fuel none l'

theorem Reads.refl (l : Lexer) : Reads l l := ⟨0, by omega, fun _ => rfl⟩

theorem Reads.trans {l₁ l₂ l₃ : Lexer} (h : Reads l₁ l₂) (h' : Reads l₂ l₃) : Reads l₁ l₃ := by
  obtain ⟨n, le, heq⟩ := h
  obtain ⟨m, le', heq'⟩ := h'
  exact ⟨m + n, by omega, fun fuel => by rw [← Nat.add_assoc, heq, heq']⟩

theorem Reads.step {l l' : Lexer} (h : l.step = .ok l')
    (shorter : l'.cursor.rest.length < l.cursor.rest.length)
    (goes : l'.tokens.back? ≠ some .streamEnd) : Reads l l' := by
  refine ⟨1, by omega, fun fuel => ?_⟩
  rw [toEnd, stepTo, h]
  simp [goes]

/-- A lexer stands in front of what is left of a document, whose next token is at the given column
and may be a key. -/
structure Stands (l : Lexer) (rest : List Char) (column : Nat) (ts : List Token)
    (indents : List Nat) : Prop where
  arrives : ∃ i n, l.toNextToken (l.cursor.rest.length + 1) = free ⟨rest, i, n, column⟩ ts indents true
  within : rest.length ≤ l.cursor.rest.length

/-- What begins with the name of a setting, if with anything. -/
def BeginsName (cs : List Char) : Prop := ∀ c ∈ cs.head?, c.isLower = true

/-- The name of a setting, as its characters go. -/
structure IsName (w : List Char) : Prop where
  word : PlainWord w
  begins : BeginsName w
  short : w.length ≤ maxKeyLength

theorem glyph_of_isLower {c : Char} (h : c.isLower = true) : Glyph c := by
  have h : (decide (c.val ≥ 'a'.val) && decide (c.val ≤ 'z'.val)) = true := h
  simp only [Bool.and_eq_true, decide_eq_true_eq] at h
  have lo : 0x61 ≤ c.toNat := UInt32.le_iff_toNat_le.1 h.1
  have hi : c.toNat ≤ 0x7A := UInt32.le_iff_toNat_le.1 h.2
  exact ⟨by omega, by omega⟩

theorem BeginsName.beginsGlyph {cs : List Char} (h : BeginsName cs) : BeginsGlyph cs :=
  fun c hc => glyph_of_isLower (h c hc)

theorem BeginsName.noComment {cs : List Char} (h : BeginsName cs) : cs.head? ≠ some '#' :=
  fun hhead => ne_of_class (p := Char.isLower) (h '#' hhead) (by decide) rfl

/-- A name is a plain scalar. -/
theorem IsName.beginsPlain {w : List Char} (h : IsName w) (rest : List Char) (i n k : Nat) :
    BeginsPlain ⟨w ++ rest, i, n, k⟩ := by
  obtain ⟨x, w, rfl⟩ := List.exists_cons_of_ne_nil h.word.filled
  have lower : x.isLower = true := h.begins x rfl
  have hpeek : (⟨x :: w ++ rest, i, n, k⟩ : Cursor).peek = x := rfl
  refine ⟨hpeek ▸ glyph_of_isLower lower, hpeek ▸ isLeadingIndicator_of_class (by decide) lower, ?_, ?_⟩
  · rw [hpeek]
    rintro (rfl | rfl | rfl) <;> cases lower
  · rw [hpeek]
    exact fun _ => ⟨ne_of_class lower (by decide), ne_of_class lower (by decide)⟩

/-- A phrase whose front is fit begins a plain scalar. -/
theorem beginsPlain_of_phrase {indent : Nat} {rs : List Run} {out : List Char} (phrase : Phrase rs)
    (laid : Laid indent false rs out) (front : badFront (rs.flatMap Run.chars) = false)
    (tail : List Char) (i n : Nat) {k : Nat} (inner : 0 < k) :
    BeginsPlain ⟨out ++ tail, i, n, k⟩ := by
  -- What follows the first word of the text is a blank, or nothing.
  have key {w cs more : List Char} (fit : PlainWord w) (front : badFront (w ++ cs) = false)
      (blank : isBlankOrEnd (cs.headD endMark) = true) : BeginsPlain ⟨w ++ more, i, n, k⟩ := by
    obtain ⟨x, w, rfl⟩ := List.exists_cons_of_ne_nil fit.filled
    have hpeek : (⟨x :: w ++ more, i, n, k⟩ : Cursor).peek = x := rfl
    rw [List.cons_append, badFront, Bool.or_eq_false_iff] at front
    refine ⟨hpeek ▸ fit.glyphs x List.mem_cons_self, hpeek ▸ front.1, ?_, fun h => ?_⟩
    · rw [hpeek]
      intro mark
      cases w with
      | nil =>
        rw [List.nil_append, blank] at front
        rcases mark with rfl | rfl | rfl <;> cases front.2
      | cons y w => exact (fit.glyphs y (by simp)).isBlankOrEnd
    · exact absurd h (Nat.ne_of_gt inner)
  cases phrase with
  | @word w fit =>
    cases laid with
    | gap between => cases between
    | word _ laid =>
      cases laid
      have front : badFront (w ++ []) = false := by simpa [Run.chars] using front
      simpa using key fit front (by decide)
  | @cons w n rs fit filled phrase =>
    cases laid with
    | gap between => cases between
    | word _ laid =>
      rw [List.flatMap_cons, List.flatMap_cons] at front
      have blank : isBlankOrEnd (((Run.spaces n).chars ++ rs.flatMap Run.chars).headD endMark) =
          true := by
        simp [Run.chars, List.head?_append, List.head?_replicate, Nat.ne_of_gt filled]
        decide
      simpa using key fit front blank

section Lines

variable {l : Lexer} {ts ts' : List Token} {indents indents' : List Nat} {column : Nat}

/-- Behind the end of a line the next one is met. -/
theorem stands_line {rest : List Char} {allowed : Bool} (begins : BeginsName rest)
    (i n k : Nat) :
    Stands (free ⟨'\n' :: (List.replicate column ' ' ++ rest), i, n, k⟩ ts indents allowed) rest
      column ts indents := by
  refine ⟨⟨i + 1 + column, n + 1, ?_⟩, by simp; omega⟩
  exact toNextToken_line _ begins.beginsGlyph begins.noComment

/-- A line is met at its first character. -/
theorem stands_here {rest : List Char} (begins : BeginsName rest) (i n : Nat) :
    Stands (free ⟨rest, i, n, column⟩ ts indents true) rest column ts indents := by
  exact ⟨⟨i, n, toNextToken_here _ begins.beginsGlyph begins.noComment⟩, Nat.le_refl _⟩

/-- The name of a setting is read as a key. -/
theorem reads_key {w rest : List Char} {b : Char} (name : IsName w) (blank : isBlankOrEnd b = true)
    (stands : Stands l (w ++ ':' :: b :: rest) column ts indents)
    (closes : closeBlocks column indents ts.toArray = (indents', ts'.toArray)) :
    ∃ i n k, column < k ∧ Reads l (free ⟨b :: rest, i, n, k⟩
      (ts' ++ keyTokens (innermost indents' < column) ++
        [.scalar .plain ⟨String.ofList w, false⟩, .value])
      (if innermost indents' < column then column :: indents' else indents') false) := by
  obtain ⟨⟨i, n, arrives⟩, within⟩ := stands
  obtain ⟨required, hname⟩ := step_plain_key arrives closes (name.beginsPlain _ i n column)
    fun outer => plainScalar_of_name outer name.word blank i n column
  have filled : 0 < w.length := List.length_pos_iff.2 name.word.filled
  have short : i + w.length - i ≤ maxKeyLength := by
    have := name.short
    omega
  have inner : ∀ m ∈ indents'.head?, (m : Int) ≤ (column + w.length : Nat) := fun m hm => by
    have := le_of_closeBlocks closes m hm
    omega
  refine ⟨i + w.length + 1, n, column + w.length + 1, by omega,
    .trans (.step hname ?_ ?_) (.step (step_colon blank short inner) ?_ ?_)⟩
  · simp at within ⊢
    omega
  · simp
  · simp
  · simp

/-- A plain value is read up to the next line. -/
theorem step_phrase {indent m : Nat} {ms : List Nat} {rs : List Run} {out rest : List Char}
    (phrase : Phrase rs) (front : badFront (rs.flatMap Run.chars) = false)
    (laid : Laid indent false rs out) (inner : m < indent) (begins : BeginsName rest)
    (less : column ≤ m) {i n k : Nat} (inside : m < k)
    (arrives : l.toNextToken (l.cursor.rest.length + 1) =
      free ⟨out ++ '\n' :: (List.replicate column ' ' ++ rest), i, n, k⟩ ts (m :: ms) false) :
    ∃ i' n', l.step = .ok (free ⟨rest, i', n', column⟩
      (ts ++ [.scalar .plain ⟨String.ofList (rs.flatMap Run.chars), false⟩]) (m :: ms) true) := by
  have closes : closeBlocks k (m :: ms) ts.toArray = (m :: ms, ts.toArray) :=
    closeBlocks_of_le (by simp; omega) _
  obtain ⟨i', n', read⟩ := plainScalar_of_phrase phrase laid inner begins.beginsGlyph
    (fun _ x hx => ⟨ne_of_class (begins x hx) (by decide), ne_of_class (begins x hx) (by decide)⟩)
    (Nat.lt_succ_of_le less) i n inside
  refine ⟨i', n', step_plain_value (s := ⟨rs.flatMap Run.chars, true⟩) arrives closes
    (beginsPlain_of_phrase phrase laid front _ i n (Nat.zero_lt_of_lt inside)) ?_⟩
  rw [indent_eq]
  exact read

/-- A quoted value is read up to the end of its line. -/
theorem step_woven {indent m : Nat} {ms : List Nat} {double : Bool} {cs out tail : List Char}
    (woven : Woven indent double cs out) (indented : 0 < indent) (closing : Closes tail)
    {i n k : Nat} (inside : m < k)
    (arrives : l.toNextToken (l.cursor.rest.length + 1) =
      free ⟨quoteOf double :: out ++ quoteOf double :: tail, i, n, k⟩ ts (m :: ms) false) :
    ∃ d : Cursor, d.rest = tail ∧ l.step = .ok (free d
      (ts ++ [.scalar (if double then .double else .single) ⟨String.ofList cs, false⟩]) (m :: ms)
      false) := by
  have closes : closeBlocks k (m :: ms) ts.toArray = (m :: ms, ts.toArray) :=
    closeBlocks_of_le (by simp; omega) _
  obtain ⟨d, read, hd⟩ := quotedScalar_of_woven indented woven closing
    (c := ⟨quoteOf double :: out ++ quoteOf double :: tail, i, n, k⟩) rfl
  exact ⟨d, hd, step_quoted double arrives closes rfl read⟩

/-- The value of a setting is read as the text that it is laid out as. -/
theorem reads_value {indent m : Nat} {ms : List Nat} {style : ScalarStyle} {cs out rest : List Char}
    (scribed : Scribed indent style cs out) (inner : m < indent) (begins : BeginsName rest)
    (less : column ≤ m) (i n : Nat) {k : Nat} (inside : m ≤ k) :
    ∃ l', Reads (free ⟨' ' :: (out ++ '\n' :: (List.replicate column ' ' ++ rest)), i, n, k⟩ ts
        (m :: ms) false) l' ∧
      Stands l' rest column (ts ++ [.scalar style ⟨String.ofList cs, false⟩]) (m :: ms) := by
  have arrives {more : List Char} (hmore : ∃ x xs, more = x :: xs ∧ Glyph x ∧ x ≠ '#') (fuel : Nat) :
      (free ⟨' ' :: more, i, n, k⟩ ts (m :: ms) false).toNextToken (fuel + 1) =
        free ⟨more, i + 1, n, k + 1⟩ ts (m :: ms) false := by
    obtain ⟨x, xs, rfl, glyph, noComment⟩ := hmore
    exact toNextToken_spaces (m := 1) fuel (by simpa [BeginsGlyph] using glyph)
      (by simpa using noComment)
  cases scribed with
  | @plain rs out phrase front laid =>
    obtain ⟨x, xs, rfl, first⟩ := phrase.begins laid
    obtain ⟨i', n', step⟩ := step_phrase phrase front laid inner begins less (Nat.lt_succ_of_le inside)
      (arrives ⟨x, _, rfl, first⟩ _)
    refine ⟨_, .step step ?_ ?_, stands_here begins i' n'⟩
    · simp
      omega
    · simp
  | @quoted double cs out woven =>
    have noComment : quoteOf double ≠ '#' := by cases double <;> decide
    have layout : quoteOf double :: out ++ [quoteOf double] ++
        '\n' :: (List.replicate column ' ' ++ rest) =
          quoteOf double :: out ++ quoteOf double :: '\n' :: (List.replicate column ' ' ++ rest) := by
      simp
    have closing : Closes ('\n' :: (List.replicate column ' ' ++ rest)) := by simp [Closes]
    rw [layout]
    obtain ⟨⟨later, i', n', k'⟩, rfl, step⟩ := step_woven woven (Nat.zero_lt_of_lt inner)
      closing (Nat.lt_succ_of_le inside)
      (arrives ⟨quoteOf double, _, rfl, glyph_quoteOf double, noComment⟩ _)
    refine ⟨_, .step step ?_ ?_, stands_line begins i' n' k'⟩
    · simp
      omega
    · simp

end Lines

end Lexer

end Pinhole.Yaml
