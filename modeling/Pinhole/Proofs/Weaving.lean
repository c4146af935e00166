import Pinhole.Proofs.Layout

/-!
# Texts between quotes

Between quotes a line may be broken at blanks, and between double quotes anywhere: `Woven` tells the
layouts of a quoted text without columns, as `Laid` does for texts that are written in runs. What is
written for any text is one of the layouts of its style (`putText_scribed`), and every character of a
layout is visible ASCII or ends a line (`Scribed.visible`).
-/

namespace Pinhole.Yaml

/-! ## Texts between quotes -/

/-- The characters that mean something else between quotes of one kind. -/
def quoteMarks (double : Bool) : List Char := if double then ['"', '\\'] else ['\'']

/-- Whether a text begins with a glyph, if with anything. -/
def BeginsGlyph (cs : List Char) : Prop := ∀ c ∈ cs.head?, Glyph c

/-- What may be written for a text between quotes, the quotes left out. Between double quotes a line
may be broken anywhere, but a blank in front of the next line has to be escaped. -/
inductive Woven (indent : Nat) : (double : Bool) → List Char → List Char → Prop
  | nil (double : Bool) : Woven indent double [] []
  | glyph {double : Bool} {c : Char} {cs out : List Char} (glyph : Glyph c)
      (own : c ∉ quoteMarks double) (rest : Woven indent double cs out) :
      Woven indent double (c :: cs) (c :: out)
  | quote {cs out : List Char} (rest : Woven indent false cs out) :
      Woven indent false ('\'' :: cs) ('\'' :: '\'' :: out)
  | gap {double : Bool} {g o cs out : List Char} (gap : Gap indent double g o)
      (ends : BeginsGlyph out) (rest : Woven indent double cs out) :
      Woven indent double (g ++ cs) (o ++ out)
  | escaped {c : Char} {e cs out : List Char} (escape : escape? c = some e)
      (rest : Woven indent true cs out) : Woven indent true (c :: cs) (e ++ out)
  | broken {cs out : List Char} (begins : BeginsGlyph out) (rest : Woven indent true cs out) :
      Woven indent true cs ('\\' :: '\n' :: margin indent ++ out)
  | brokenSpace {cs out : List Char} (rest : Woven indent true cs out) :
      Woven indent true (' ' :: cs) ('\\' :: '\n' :: margin indent ++ '\\' :: ' ' :: out)

/-- A text of glyphs between single quotes. -/
theorem Woven.word {indent : Nat} {w cs out : List Char} (glyphs : ∀ c ∈ w, Glyph c)
    (rest : Woven indent false cs out) :
    Woven indent false (w ++ cs) (doubledQuotes w ++ out) := by
  induction w with
  | nil => exact rest
  | cons c w ih =>
    obtain ⟨first, others⟩ := List.forall_mem_cons.1 glyphs
    rw [doubledQuotes, List.flatMap_cons, ← doubledQuotes, List.append_assoc]
    split_ifs with quote
    · rw [beq_iff_eq.1 quote]
      exact .quote (ih others)
    · exact .glyph first (by simpa [quoteMarks] using quote) (ih others)

theorem beginsGlyph_doubledQuotes {w : List Char} (filled : w ≠ []) (glyphs : ∀ c ∈ w, Glyph c)
    (out : List Char) : BeginsGlyph (doubledQuotes w ++ out) := by
  obtain ⟨c, w, rfl⟩ := List.exists_cons_of_ne_nil filled
  rw [doubledQuotes, List.flatMap_cons]
  split_ifs with quote
  · simp [BeginsGlyph, Glyph]
  · simpa [BeginsGlyph] using (List.forall_mem_cons.1 glyphs).1

/-- The layout of runs is one between single quotes, if words and gaps stand in turn. -/
theorem Laid.woven {indent : Nat} {rs : List Run} {out : List Char} (h : Laid indent true rs out)
    (proper : ∀ r ∈ rs, r.Proper) (glyphs : ∀ r ∈ rs, r.isWord = true → ∀ c ∈ r.chars, Glyph c)
    (alternate : Alternate rs) : Woven indent false (rs.flatMap Run.chars) out := by
  induction h with
  | nil => exact .nil false
  | word cs rest ih =>
    exact .word (glyphs _ List.mem_cons_self rfl) (ih (List.forall_mem_cons.1 proper).2
      (List.forall_mem_cons.1 glyphs).2 alternate.of_cons)
  | gap between gap rest ih =>
    refine .gap gap ?_ (ih (List.forall_mem_cons.1 proper).2 (List.forall_mem_cons.1 glyphs).2
      alternate.of_cons)
    cases rest with
    | nil => simp [BeginsGlyph]
    | word cs rest =>
      have filled : cs ≠ [] := (proper (.word cs) (by simp)).1
      exact beginsGlyph_doubledQuotes filled (glyphs (.word cs) (by simp) rfl) _
    | gap between' =>
      exact absurd (between.trans between'.symm) (List.isChain_cons_cons.1 alternate).1

/-! ## Escapes -/

/-- The marks of numeric escapes and how many digits follow them. -/
def numericMarks : List (Char × Nat) := [('x', 2), ('u', 4), ('U', 8)]

theorem glyph_of_escapeLetter? {c letter : Char} (h : escapeLetter? c = some letter) :
    Glyph letter := by
  unfold escapeLetter? at h
  split at h <;> first | cases h; decide | cases h

/-- An escape is a letter, or a number in full. -/
theorem escape?_eq_some {c : Char} {e : List Char} (h : escape? c = some e) :
    (∃ letter, escapeLetter? c = some letter ∧ e = ['\\', letter]) ∨
      ∃ mark width, (mark, width) ∈ numericMarks ∧ c.toNat < Nat.pow 16 width ∧
        e = '\\' :: mark :: Text.hexDigits .upper width c.toNat := by
  unfold escape? at h
  split at h
  case h_1 letter hletter => exact .inl ⟨letter, hletter, (Option.some.inj h).symm⟩
  case h_2 =>
    have valid : c.toNat < 0x110000 := by
      have := c.valid
      simp only [UInt32.isValidChar, Nat.isValidChar] at this
      simp only [Char.toNat]
      omega
    dsimp only at h
    split_ifs at h with inline short long
    · exact .inr ⟨'x', 2, by decide, Nat.lt_succ_of_le short, (Option.some.inj h).symm⟩
    · exact .inr ⟨'u', 4, by decide, Nat.lt_succ_of_le long, (Option.some.inj h).symm⟩
    · exact .inr ⟨'U', 8, by decide, Nat.lt_trans valid (by decide), (Option.some.inj h).symm⟩

/-- What needs no escape is a space, or a glyph that means nothing else. -/
theorem escape?_eq_none {c : Char} (h : escape? c = none) :
    c = ' ' ∨ Glyph c ∧ c ∉ quoteMarks true := by
  have noLetter : escapeLetter? c = none := by
    unfold escape? at h
    split at h
    · cases h
    · assumption
  have own : c ∉ quoteMarks true := by
    intro hmem
    rcases List.mem_pair.1 hmem with rfl | rfl <;> cases noLetter
  have visible : isVisible c = true := by
    unfold escape? at h
    rw [noLetter] at h
    dsimp only at h
    split_ifs at h with inline
    simp [isVisible, inline.1, inline.2]
  rcases isVisible_iff.1 visible with rfl | rfl | glyph
  · cases noLetter
  · exact .inl rfl
  · exact .inr ⟨glyph, own⟩

theorem glyph_of_mem_escape {c d : Char} {e : List Char} (h : escape? c = some e) (hd : d ∈ e) :
    Glyph d := by
  obtain ⟨letter, hletter, rfl⟩ | ⟨mark, width, hmark, -, rfl⟩ := escape?_eq_some h
  · rcases List.mem_pair.1 hd with rfl | rfl
    · decide
    · exact glyph_of_escapeLetter? hletter
  · rcases List.mem_cons.1 hd with rfl | hd
    · decide
    rcases List.mem_cons.1 hd with rfl | hd
    · simp only [numericMarks, List.mem_cons, Prod.mk.injEq, List.not_mem_nil, or_false] at hmark
      rcases hmark with ⟨rfl, -⟩ | ⟨rfl, -⟩ | ⟨rfl, -⟩ <;> decide
    · obtain ⟨lo, hi⟩ := Text.visible_of_mem_hexDigits hd
      exact ⟨lo, Nat.le_of_lt_succ hi⟩

theorem beginsGlyph_escape {c : Char} {e : List Char} (h : escape? c = some e) (out : List Char) :
    BeginsGlyph (e ++ out) := by
  obtain ⟨letter, -, rfl⟩ | ⟨mark, width, -, -, rfl⟩ := escape?_eq_some h <;>
    simp [BeginsGlyph, Glyph]

/-! ## Texts between double quotes -/

/-- A text that does not begin with a space is not laid out with a blank in front. -/
theorem Woven.beginsGlyph {indent : Nat} {cs out : List Char} (h : Woven indent true cs out)
    (noSpace : cs.head? ≠ some ' ') : BeginsGlyph out := by
  cases h with
  | nil => simp [BeginsGlyph]
  | glyph glyph => simpa [BeginsGlyph] using glyph
  | gap gap =>
    cases gap with
    | spaces _ filled => simp [List.head?_append, List.head?_replicate, Nat.ne_of_gt filled] at noSpace
  | escaped escape => exact beginsGlyph_escape escape _
  | broken | brokenSpace => simp [BeginsGlyph, Glyph]

theorem Woven.space {indent : Nat} {cs out : List Char} (h : Woven indent true cs out) :
    Woven indent true (' ' :: cs) (' ' :: out) := by
  have alone {cs out : List Char} (begins : BeginsGlyph out) (h : Woven indent true cs out) :
      Woven indent true (' ' :: cs) (' ' :: out) := .gap (.spaces true Nat.one_pos) begins h
  cases h with
  | nil => exact alone (by simp [BeginsGlyph]) (.nil true)
  | glyph glyph own rest => exact alone (by simpa [BeginsGlyph] using glyph) (.glyph glyph own rest)
  | gap gap begins rest =>
    cases gap with
    | spaces _ filled => exact .gap (.spaces true (Nat.succ_pos _)) begins rest
  | escaped escape rest => exact alone (beginsGlyph_escape escape _) (.escaped escape rest)
  | broken begins rest => exact alone (by simp [BeginsGlyph, Glyph]) (.broken begins rest)
  | brokenSpace rest => exact alone (by simp [BeginsGlyph, Glyph]) (.brokenSpace rest)

theorem adds_breakDouble (indent : Nat) (beforeSpace : Bool) (s : Sheet) :
    s.Adds (breakDouble indent beforeSpace s)
      ('\\' :: '\n' :: margin indent ++ if beforeSpace then ['\\'] else []) := by
  have line : s.Adds (((s.put ['\\']).feed).indent indent) ('\\' :: '\n' :: margin indent) :=
    ((s.adds_put ['\\']).trans (Sheet.adds_feed _)).trans (Sheet.adds_indent _ _)
  cases beforeSpace with
  | false => exact line.trans (.refl _)
  | true => exact line.trans (Sheet.adds_put _ ['\\'])

theorem column_breakDouble_le {indent : Nat} (narrow : indent < Sheet.width) (beforeSpace : Bool)
    (s : Sheet) : (breakDouble indent beforeSpace s).column ≤ Sheet.width := by
  unfold breakDouble
  split_ifs <;> simp [Sheet.indent, Sheet.put, Sheet.feed] <;> omega

/-- What is written between double quotes is a layout of the text. A line that has just been broken
in front of a space goes on with that space. -/
theorem woven_putDouble {indent : Nat} (narrow : indent < Sheet.width) (first afterEscape : Bool)
    (s : Sheet) (cs : List Char) :
    (∃ out, Woven indent true cs out ∧ s.Adds (putDouble indent first afterEscape s cs) out) ∧
      ∀ rest, cs = ' ' :: rest → s.column ≤ Sheet.width →
        ∃ out, Woven indent true rest out ∧
          s.Adds (putDouble indent first afterEscape s cs) (' ' :: out) := by
  induction cs generalizing first afterEscape s with
  | nil => exact ⟨⟨[], .nil true, .refl s⟩, nofun⟩
  | cons c cs ih =>
    constructor
    · rw [putDouble]
      dsimp only
      split
      case h_1 e escape =>
        split
        case isTrue full =>
          by_cases space : cs.head? = some ' '
          · -- The escaped space that begins the next line is the next character of the text.
            obtain ⟨rest, rfl⟩ := List.head?_eq_some_iff.1 space
            obtain ⟨out, woven, adds⟩ := (ih false true (breakDouble indent true (s.put e))).2 rest
              rfl (column_breakDouble_le narrow _ _)
            refine ⟨_, .escaped escape (.brokenSpace woven), ?_⟩
            simpa using ((s.adds_put e).trans (adds_breakDouble indent true _)).trans adds
          · obtain ⟨⟨out, woven, adds⟩, -⟩ := ih false true (breakDouble indent false (s.put e))
            refine ⟨_, .escaped escape (.broken (woven.beginsGlyph space) woven), ?_⟩
            rw [beq_false_of_ne space]
            simpa using ((s.adds_put e).trans (adds_breakDouble indent false _)).trans adds
        case isFalse =>
          obtain ⟨⟨out, woven, adds⟩, -⟩ := ih false true (s.put e)
          exact ⟨_, .escaped escape woven, (s.adds_put e).trans adds⟩
      case h_2 plain =>
        have kind := escape?_eq_none plain
        split
        case isTrue full =>
          obtain ⟨⟨out, woven, adds⟩, -⟩ := ih false false ((breakDouble indent (c == ' ') s).put [c])
          have adds := ((adds_breakDouble indent (c == ' ') s).trans (Sheet.adds_put _ [c])).trans adds
          obtain rfl | ⟨glyph, own⟩ := kind
          · exact ⟨_, .brokenSpace woven, by simpa using adds⟩
          · have noSpace : (c == ' ') = false := beq_false_of_ne (glyph.ne (by decide))
            rw [noSpace] at adds ⊢
            refine ⟨_, .broken ?_ (.glyph glyph own woven), by simpa using adds⟩
            simpa [BeginsGlyph] using glyph
        case isFalse =>
          obtain ⟨⟨out, woven, adds⟩, -⟩ := ih false false (s.put [c])
          have adds := (s.adds_put [c]).trans adds
          obtain rfl | ⟨glyph, own⟩ := kind
          · exact ⟨_, woven.space, adds⟩
          · exact ⟨_, .glyph glyph own woven, adds⟩
    · rintro rest heq roomy
      obtain ⟨rfl, rfl⟩ := List.cons.inj heq
      obtain ⟨⟨out, woven, adds⟩, -⟩ := ih false false (s.put [' '])
      refine ⟨out, woven, ?_⟩
      have fits : ¬ Sheet.width < s.column := Nat.not_lt.2 roomy
      rw [putDouble]
      simpa [escape?, escapeLetter?, fits] using (s.adds_put [' ']).trans adds

/-! ## Scalars -/

/-- What may be written for a text in a style, quotes included. -/
inductive Scribed (indent : Nat) : ScalarStyle → List Char → List Char → Prop
  | plain {rs : List Run} {out : List Char} (phrase : Phrase rs)
      (front : badFront (rs.flatMap Run.chars) = false) (laid : Laid indent false rs out) :
      Scribed indent .plain (rs.flatMap Run.chars) out
  | quoted (double : Bool) {cs out : List Char} (woven : Woven indent double cs out) :
      Scribed indent (if double then .double else .single) cs
        ((if double then '"' else '\'') :: out ++ [if double then '"' else '\''])

theorem apart_of_not_mem {cs : List Char} (h : '\n' ∉ cs) : Apart cs := by
  have none_of (p q : Char → Bool) (hpq : ∀ c d, p c = true → q d = true → c = '\n' ∨ d = '\n') :
      hasPair p q cs = false := by
    induction cs with
    | nil => rfl
    | cons c cs ih =>
      cases cs with
      | nil => rfl
      | cons d cs =>
        have pair : ¬(p c = true ∧ q d = true) := by
          rintro ⟨hc, hd⟩
          rcases hpq c d hc hd with rfl | rfl <;> simp at h
        rw [hasPair, ih (fun hmem => h (List.mem_cons_of_mem _ hmem)), Bool.or_false]
        simpa using pair
  exact ⟨none_of _ _ fun c d _ hd => .inr (by simpa using hd),
    none_of _ _ fun c d hc _ => .inl (by simpa using hc)⟩

/-- A text that may be plain is laid out as a phrase. -/
theorem scribed_plain {indent : Nat} {cs out : List Char} (filled : cs ≠ [])
    (fit : mayBePlain cs = true) (laid : Laid indent false (runs cs) out) :
    Scribed indent .plain cs out := by
  simp only [mayBePlain, hasOuterSpace, Bool.and_eq_true, List.all_eq_true, bne_iff_ne, ne_eq,
    Bool.not_eq_true', Bool.or_eq_false_iff, beq_eq_false_iff_ne] at fit
  obtain ⟨⟨⟨⟨visible, noOuter⟩, -⟩, front⟩, inside⟩ := fit
  have onLine : ∀ c ∈ cs, c = ' ' ∨ Glyph c := fun c hc =>
    (isVisible_iff.1 (visible c hc).1).resolve_left (visible c hc).2
  have text : PlainText ((runs cs).flatMap Run.chars) := by
    rw [chars_runs]
    refine ⟨filled, onLine, ?_, noOuter.2, inside⟩
    intro hhead
    obtain ⟨cs, rfl⟩ := List.head?_eq_some_iff.1 hhead
    simp [badFront, isLeadingIndicator] at front
  have begins : ∀ r ∈ (runs cs).head?, r.isWord = true := by
    intro r hr
    obtain ⟨c, hc, hhead⟩ := head?_of_runs hr
    cases r with
    | spaces n => exact absurd (List.eq_of_mem_replicate hc ▸ hhead) noOuter.1
    | breaks n =>
      obtain ⟨cs, rfl⟩ := List.head?_eq_some_iff.1 hhead
      exact absurd (List.eq_of_mem_replicate hc) (visible c List.mem_cons_self).2
    | word w => rfl
  have apart : Apart cs := apart_of_not_mem fun hmem => (visible _ hmem).2 rfl
  have phrase := phrase_of_plainText (alternate_runs apart) (proper_runs cs) begins text
  have scribed : Scribed indent .plain ((runs cs).flatMap Run.chars) out :=
    .plain phrase (by rwa [chars_runs]) laid
  rwa [chars_runs] at scribed

/-- A text that may stand between single quotes is woven between them. -/
theorem woven_single {indent : Nat} {cs out : List Char} (fit : mayBeSingle cs = true)
    (laid : Laid indent true (runs cs) out) : Woven indent false cs out := by
  simp only [mayBeSingle, Bool.and_eq_true, List.all_eq_true, Bool.not_eq_true'] at fit
  obtain ⟨⟨visible, space⟩, feed⟩ := fit
  have glyphs : ∀ r ∈ runs cs, r.isWord = true → ∀ c ∈ r.chars, Glyph c := by
    intro r hr word c hc
    have proper := proper_runs cs r hr
    have hmem : c ∈ cs := chars_runs cs ▸ List.mem_flatMap.2 ⟨r, hr, hc⟩
    cases r with
    | spaces n | breaks n => cases word
    | word w =>
      rcases isVisible_iff.1 (visible c hmem) with rfl | rfl | glyph
      · exact absurd hc proper.2.2
      · exact absurd hc proper.2.1
      · exact glyph
  have woven := laid.woven (proper_runs cs) glyphs (alternate_runs ⟨space, feed⟩)
  rwa [chars_runs] at woven

/-- A text is written in one of the layouts of its style. -/
theorem putText_scribed {indent : Nat} (narrow : indent < Sheet.width) (s : Sheet) (text : String) :
    ∃ out, Scribed indent (styleOf text) text.toList out ∧ s.Adds (putText indent s text) out := by
  unfold styleOf putText styleOf
  dsimp only
  split_ifs with plain single
  · obtain ⟨out, laid, adds⟩ :=
      laid_putRuns indent false true s (proper_runs text.toList)
    have filled : text.toList ≠ [] := by
      intro empty
      rw [String.toList_eq_nil_iff.1 empty] at plain
      revert plain
      decide
    exact ⟨out, scribed_plain filled (Bool.and_eq_true_iff.1 plain).1 laid, adds⟩
  · obtain ⟨out, laid, adds⟩ :=
      laid_putRuns indent true true (s.put ['\'']) (proper_runs text.toList)
    exact ⟨_, .quoted false (woven_single single laid),
      ((s.adds_put ['\'']).trans adds).trans (Sheet.adds_put _ ['\''])⟩
  · obtain ⟨⟨out, woven, adds⟩, -⟩ :=
      woven_putDouble narrow true true (s.put ['"']) text.toList
    exact ⟨_, .quoted true woven, ((s.adds_put ['"']).trans adds).trans (Sheet.adds_put _ ['"'])⟩

/-! ## What scalars are made of -/

theorem Woven.visible {indent : Nat} {double : Bool} {cs out : List Char}
    (h : Woven indent double cs out) : ∀ c ∈ out, isVisible c = true := by
  have line : ∀ c ∈ '\\' :: '\n' :: margin indent, isVisible c = true :=
    List.forall_mem_cons.2 ⟨by decide, Gap.fold.visible⟩
  induction h with
  | nil => exact fun c hc => absurd hc List.not_mem_nil
  | glyph glyph own rest ih => exact List.forall_mem_cons.2 ⟨glyph.visible, ih⟩
  | quote rest ih =>
    exact List.forall_mem_cons.2 ⟨by decide, List.forall_mem_cons.2 ⟨by decide, ih⟩⟩
  | gap gap begins rest ih => exact List.forall_mem_append.2 ⟨gap.visible, ih⟩
  | escaped escape rest ih =>
    exact List.forall_mem_append.2 ⟨fun c hc => (glyph_of_mem_escape escape hc).visible, ih⟩
  | broken begins rest ih => exact List.forall_mem_append.2 ⟨line, ih⟩
  | brokenSpace rest ih =>
    exact List.forall_mem_append.2
      ⟨line, List.forall_mem_cons.2 ⟨by decide, List.forall_mem_cons.2 ⟨by decide, ih⟩⟩⟩

/-- Layouts are made of glyphs, spaces and line breaks. -/
theorem Scribed.visible {indent : Nat} {style : ScalarStyle} {cs out : List Char}
    (h : Scribed indent style cs out) : ∀ c ∈ out, isVisible c = true := by
  cases h with
  | plain phrase front laid => exact phrase.visible laid
  | quoted double woven =>
    have mark : isVisible (if double then '"' else '\'') = true := by cases double <;> decide
    exact List.forall_mem_cons.2 ⟨mark, List.forall_mem_append.2
      ⟨woven.visible, List.forall_mem_singleton.2 mark⟩⟩

end Pinhole.Yaml
