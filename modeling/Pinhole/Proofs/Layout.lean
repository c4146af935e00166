import Mathlib.Data.List.Basic
import Pinhole.Yaml.Writer

/-!
# How texts are laid out

The writers of scalars keep a sheet with a column, and the column decides where a line is broken. What
is read back does not depend on it: wherever a line may be broken, the text stays the same. So the
layouts of a text that is written in runs are told without columns (`Laid`), and a text that is
written plain is a `Phrase`, words with spaces between them.
-/

namespace Pinhole.Yaml

/-! ## Characters -/

/-- Visible characters of ASCII. -/
def Glyph (c : Char) : Prop := 0x20 < c.toNat ∧ c.toNat ≤ 0x7E

instance (c : Char) : Decidable (Glyph c) := inferInstanceAs (Decidable (_ ∧ _))

section Glyph

variable {c : Char}

theorem Glyph.ne {d : Char} (h : Glyph c) (other : ¬ Glyph d) : c ≠ d := fun e => other (e ▸ h)

theorem Glyph.visible (h : Glyph c) : isVisible c = true := by
  have lo : 0x20 ≤ c.toNat := Nat.le_of_lt h.1
  simp [isVisible, lo, h.2]

theorem isVisible_iff : isVisible c = true ↔ c = '\n' ∨ c = ' ' ∨ Glyph c := by
  have space : c = ' ' ↔ c.toNat = 0x20 := ⟨fun e => e ▸ rfl, fun e => Char.toNat_inj.1 e⟩
  rw [space]
  simp only [isVisible, Glyph, Bool.or_eq_true, beq_iff_eq, Bool.and_eq_true, decide_eq_true_eq]
  refine or_congr_right ?_
  omega

theorem Glyph.isBreak (h : Glyph c) : isBreak c = false := by
  simp [Yaml.isBreak, h.ne (d := '\n') (by decide), h.ne (d := '\r') (by decide),
    h.ne (d := Char.ofNat 0x85) (by decide), h.ne (d := Char.ofNat 0x2028) (by decide),
    h.ne (d := Char.ofNat 0x2029) (by decide)]

theorem Glyph.isBlankOrEnd (h : Glyph c) : isBlankOrEnd c = false := by
  simp [Yaml.isBlankOrEnd, isSpaceOrEnd, isBreakOrEnd, h.isBreak, h.ne (d := '\t') (by decide),
    h.ne (d := ' ') (by decide), h.ne (d := endMark) (by decide)]

end Glyph

section Classes

variable {p : Char → Bool} {c d : Char}

/-- A character of a class is no character outside of it. -/
theorem ne_of_class (h : p c = true) (other : p d = false) : c ≠ d := by
  rintro rfl
  rw [h] at other
  cases other

/-- A character of a class that holds no leading indicator is none itself. -/
theorem isLeadingIndicator_of_class
    (outside : "#,[]\x7b\x7d&*!|>'\"%@`".toList.all (fun d => !p d) = true) (h : p c = true) :
    isLeadingIndicator c = false := by
  rw [isLeadingIndicator, ← Bool.not_eq_true, List.contains_iff_mem]
  intro mem
  simpa [h] using List.all_eq_true.1 outside c mem

end Classes

/-! ## Pairs of neighbours -/

theorem hasPair_append (p q : Char → Bool) (cs ds : List Char) :
    hasPair p q (cs ++ ds) = true ↔ hasPair p q cs = true ∨ hasPair p q ds = true ∨
      ∃ c ∈ cs.getLast?, ∃ d ∈ ds.head?, p c = true ∧ q d = true := by
  induction cs with
  | nil => simp [hasPair]
  | cons c cs ih =>
    cases cs with
    | nil =>
      cases ds with
      | nil => simp [hasPair]
      | cons d ds => simp [hasPair, or_comm]
    | cons c' cs =>
      simp only [List.cons_append, hasPair, Bool.or_eq_true] at ih ⊢
      rw [ih, List.getLast?_cons_cons, or_assoc]

/-! ## Runs -/

namespace Run

/-- The characters of a run. -/
def chars : Run → List Char
  | .spaces n => List.replicate n ' '
  | .breaks n => List.replicate n '\n'
  | .word cs => cs

/-- Whether a run is a word. -/
def isWord : Run → Bool
  | .word _ => true
  | _ => false

/-- A run that is not empty and holds nothing of the other kinds. -/
def Proper : Run → Prop
  | .spaces n | .breaks n => 0 < n
  | .word cs => cs ≠ [] ∧ ' ' ∉ cs ∧ '\n' ∉ cs

end Run

theorem chars_consRun (c : Char) (rs : List Run) :
    (consRun c rs).flatMap Run.chars = c :: rs.flatMap Run.chars := by
  unfold consRun
  split_ifs with space feed
  · rw [beq_iff_eq] at space
    split <;> simp [Run.chars, List.replicate_succ, space]
  · rw [beq_iff_eq] at feed
    split <;> simp [Run.chars, List.replicate_succ, feed]
  · split <;> simp [Run.chars]

/-- The runs of a text make up the text. -/
theorem chars_runs (cs : List Char) : (runs cs).flatMap Run.chars = cs := by
  induction cs with
  | nil => rfl
  | cons c cs ih => rw [runs, List.foldr_cons, chars_consRun, ← runs, ih]

theorem proper_consRun (c : Char) {rs : List Run} (h : ∀ r ∈ rs, r.Proper) :
    ∀ r ∈ consRun c rs, r.Proper := by
  unfold consRun
  split_ifs with space feed
  · split
    · exact List.forall_mem_cons.2 ⟨Nat.succ_pos _, (List.forall_mem_cons.1 h).2⟩
    · exact List.forall_mem_cons.2 ⟨Nat.one_pos, h⟩
  · split
    · exact List.forall_mem_cons.2 ⟨Nat.succ_pos _, (List.forall_mem_cons.1 h).2⟩
    · exact List.forall_mem_cons.2 ⟨Nat.one_pos, h⟩
  · rw [beq_iff_eq] at space feed
    split
    · obtain ⟨⟨-, noSpace, noFeed⟩, rest⟩ := List.forall_mem_cons.1 h
      refine List.forall_mem_cons.2 ⟨⟨List.cons_ne_nil _ _, ?_, ?_⟩, rest⟩
      · simpa [Ne.symm space] using noSpace
      · simpa [Ne.symm feed] using noFeed
    · exact List.forall_mem_cons.2
        ⟨⟨List.cons_ne_nil _ _, by simpa using Ne.symm space, by simpa using Ne.symm feed⟩, h⟩

theorem proper_runs (cs : List Char) : ∀ r ∈ runs cs, r.Proper := by
  induction cs with
  | nil => exact fun r hr => absurd hr List.not_mem_nil
  | cons c cs ih => exact proper_consRun c ih

/-- Whether no space of a text stands beside one of its line breaks. -/
def Apart (cs : List Char) : Prop :=
  hasPair (· == ' ') (· == '\n') cs = false ∧ hasPair (· == '\n') (· == ' ') cs = false

theorem Apart.tail {c : Char} {cs : List Char} (h : Apart (c :: cs)) : Apart cs := by
  cases cs with
  | nil => exact ⟨rfl, rfl⟩
  | cons d cs => simp_all [Apart, hasPair]

/-- Whether words and what stands between them come in turn. -/
def Alternate (rs : List Run) : Prop := rs.IsChain fun r q => r.isWord ≠ q.isWord

theorem Alternate.congr_head {r q : Run} {rs : List Run} (h : Alternate (r :: rs))
    (same : r.isWord = q.isWord) : Alternate (q :: rs) := by
  cases rs with
  | nil => exact .singleton q
  | cons r' rs => exact List.isChain_cons_cons.2 (same ▸ List.isChain_cons_cons.1 h)

/-- A character in front leaves words and gaps in turn, unless it is a blank beside a line break. -/
theorem alternate_consRun {c : Char} {rs : List Run} (h : Alternate rs)
    (noSpace : c = ' ' → ∀ n, rs.head? ≠ some (.breaks n))
    (noFeed : c = '\n' → ∀ n, rs.head? ≠ some (.spaces n)) : Alternate (consRun c rs) := by
  cases rs with
  | nil => unfold consRun; split_ifs <;> exact .singleton _
  | cons r rs =>
    unfold consRun
    split_ifs with space feed
    · rw [beq_iff_eq] at space
      cases r with
      | spaces n => exact h.congr_head rfl
      | breaks n => exact absurd rfl (noSpace space n)
      | word w => exact List.isChain_cons_cons.2 ⟨nofun, h⟩
    · rw [beq_iff_eq] at feed
      cases r with
      | spaces n => exact absurd rfl (noFeed feed n)
      | breaks n => exact h.congr_head rfl
      | word w => exact List.isChain_cons_cons.2 ⟨nofun, h⟩
    · cases r with
      | spaces n | breaks n => exact List.isChain_cons_cons.2 ⟨nofun, h⟩
      | word w => exact h.congr_head rfl

/-- A text begins with the first character of its first run. -/
theorem head?_of_runs {cs : List Char} {r : Run} (h : (runs cs).head? = some r) :
    ∃ c, c ∈ r.chars ∧ cs.head? = some c := by
  obtain ⟨rs, hrs⟩ := List.head?_eq_some_iff.1 h
  have proper : r.Proper := proper_runs cs r (hrs ▸ List.mem_cons_self)
  have filled : r.chars ≠ [] := by
    cases r with
    | spaces n | breaks n => simpa [Run.chars] using Nat.ne_of_gt proper
    | word w => exact proper.1
  obtain ⟨c, w, hw⟩ := List.exists_cons_of_ne_nil filled
  refine ⟨c, hw ▸ List.mem_cons_self, ?_⟩
  rw [← chars_runs cs, hrs, List.flatMap_cons, hw]
  rfl

theorem alternate_runs {cs : List Char} (h : Apart cs) : Alternate (runs cs) := by
  induction cs with
  | nil => exact .nil
  | cons c cs ih =>
    rw [runs, List.foldr_cons, ← runs]
    refine alternate_consRun (ih h.tail) ?_ ?_
    · rintro rfl n first
      obtain ⟨d, hd, rest⟩ := head?_of_runs first
      obtain ⟨cs, rfl⟩ := List.head?_eq_some_iff.1 rest
      simp [Apart, hasPair, List.eq_of_mem_replicate hd] at h
    · rintro rfl n first
      obtain ⟨d, hd, rest⟩ := head?_of_runs first
      obtain ⟨cs, rfl⟩ := List.head?_eq_some_iff.1 rest
      simp [Apart, hasPair, List.eq_of_mem_replicate hd] at h

/-! ## Texts in runs -/

/-- The spaces in front of a line that goes on with a scalar. -/
abbrev margin (indent : Nat) : List Char := List.replicate indent ' '

/-- What may stand between two words, and how it is written. Between double quotes only spaces stand
for themselves. -/
inductive Gap (indent : Nat) : (double : Bool) → List Char → List Char → Prop
  | spaces (double : Bool) {n : Nat} (filled : 0 < n) :
      Gap indent double (List.replicate n ' ') (List.replicate n ' ')
  | fold : Gap indent false [' '] ('\n' :: margin indent)
  | breaks {n : Nat} (filled : 0 < n) :
      Gap indent false (List.replicate n '\n') (List.replicate (n + 1) '\n' ++ margin indent)

/-- What may be written for some runs, wherever lines are broken. -/
inductive Laid (indent : Nat) (quoted : Bool) : List Run → List Char → Prop
  | nil : Laid indent quoted [] []
  | word (cs : List Char) {rs : List Run} {out : List Char} (rest : Laid indent quoted rs out) :
      Laid indent quoted (.word cs :: rs) ((if quoted then doubledQuotes cs else cs) ++ out)
  | gap {r : Run} {o : List Char} {rs : List Run} {out : List Char} (between : r.isWord = false)
      (gap : Gap indent false r.chars o) (rest : Laid indent quoted rs out) :
      Laid indent quoted (r :: rs) (o ++ out)

namespace Sheet

/-- One sheet holds what another one holds, and then the given characters. -/
def Adds (s t : Sheet) (out : List Char) : Prop := t.written = out.reverse ++ s.written

theorem Adds.refl (s : Sheet) : s.Adds s [] := rfl

theorem Adds.trans {s t u : Sheet} {out more : List Char} (h : s.Adds t out) (h' : t.Adds u more) :
    s.Adds u (out ++ more) := by
  unfold Adds at *
  rw [h', h, List.reverse_append, List.append_assoc]

theorem adds_put (s : Sheet) (cs : List Char) : s.Adds (s.put cs) cs := rfl

theorem adds_indent (s : Sheet) (n : Nat) : s.Adds (s.indent n) (margin n) := adds_put s _

theorem adds_feed (s : Sheet) : s.Adds s.feed ['\n'] := rfl

theorem adds_feeds (s : Sheet) (n : Nat) : s.Adds (s.feeds n) (List.replicate n '\n') := by
  induction n generalizing s with
  | zero => exact .refl s
  | succ n ih => exact (adds_feed s).trans (ih s.feed)

/-- A sheet holds the characters that were added to an empty one. -/
theorem Adds.text_eq {s : Sheet} {out : List Char} (h : Adds {} s out) :
    s.text = String.ofList out := by
  rw [Sheet.text, h, List.append_nil, List.reverse_reverse]

end Sheet

/-- What is written for some runs is a layout of them. -/
theorem laid_putRuns (indent : Nat) (quoted first : Bool) (s : Sheet) {rs : List Run}
    (proper : ∀ r ∈ rs, r.Proper) :
    ∃ out, Laid indent quoted rs out ∧ s.Adds (putRuns indent quoted first s rs) out := by
  induction rs generalizing s first with
  | nil => exact ⟨[], .nil, .refl s⟩
  | cons r rs ih =>
    obtain ⟨here, others⟩ := List.forall_mem_cons.1 proper
    cases r with
    | word cs =>
      obtain ⟨out, laid, adds⟩ := ih false (s.put (if quoted then doubledQuotes cs else cs)) others
      exact ⟨_, .word cs laid, (s.adds_put _).trans adds⟩
    | breaks n =>
      obtain ⟨out, laid, adds⟩ := ih false ((s.feeds (n + 1)).indent indent) others
      exact ⟨_, .gap rfl (.breaks here) laid,
        ((s.adds_feeds _).trans (Sheet.adds_indent _ _)).trans adds⟩
    | spaces n =>
      rw [putRuns]
      split
      case isTrue full =>
        obtain rfl : n = 1 := by simp at full; exact full.1.1.1
        obtain ⟨out, laid, adds⟩ := ih false (s.feed.indent indent) others
        exact ⟨_, .gap rfl .fold laid, (s.adds_feed.trans (Sheet.adds_indent _ _)).trans adds⟩
      case isFalse =>
        obtain ⟨out, laid, adds⟩ := ih false (s.put (List.replicate n ' ')) others
        exact ⟨_, .gap rfl (.spaces false here) laid, (s.adds_put _).trans adds⟩

/-! ## Plain texts -/

/-- A word of a plain scalar: it is no comment, and it does not end like a key. -/
structure PlainWord (w : List Char) : Prop where
  filled : w ≠ []
  glyphs : ∀ c ∈ w, Glyph c
  noComment : w.head? ≠ some '#'
  noKey : w.getLast? ≠ some ':'

/-- Words with spaces between them. -/
inductive Phrase : List Run → Prop
  | word {w : List Char} (fit : PlainWord w) : Phrase [.word w]
  | cons {w : List Char} {n : Nat} {rs : List Run} (fit : PlainWord w) (filled : 0 < n)
      (rest : Phrase rs) :
      Phrase (.word w :: .spaces n :: rs)

/-- What has to be known of a plain text in order to cut it into words. -/
structure PlainText (cs : List Char) : Prop where
  filled : cs ≠ []
  onLine : ∀ c ∈ cs, c = ' ' ∨ Glyph c
  begins : cs.head? ≠ some '#'
  ends : cs.getLast? ≠ some ' '
  inside : badInside cs = false

/-- Nothing inside the end of a text keeps it from being plain, and neither does its place. -/
theorem badInside_append {cs ds : List Char} (h : badInside (cs ++ ds) = false) :
    badInside ds = false ∧
      (cs.getLast? = some ':' → ∀ d ∈ (ds ++ [endMark]).head?, isBlankOrEnd d = false) ∧
      (ds.head? = some '#' → ∀ c ∈ cs.getLast?, isBlankOrEnd c = false) := by
  simp only [badInside, Bool.or_eq_false_iff] at h ⊢
  obtain ⟨colon, sign⟩ := h
  rw [List.append_assoc, ← Bool.not_eq_true, hasPair_append] at colon
  rw [← Bool.not_eq_true, hasPair_append] at sign
  push Not at colon sign
  refine ⟨⟨by simpa using colon.2.1, by simpa using sign.2.1⟩, fun hc d hd => ?_, fun hd c hc => ?_⟩
  · simpa using colon.2.2 ':' hc d hd rfl
  · simpa using mt (sign.2.2 c hc '#' hd) (by simp)

theorem PlainText.word {w cs : List Char} (h : PlainText (w ++ cs)) (filled : w ≠ [])
    (noSpace : ' ' ∉ w) (next : ∀ d ∈ (cs ++ [endMark]).head?, isBlankOrEnd d = true) :
    PlainWord w where
  filled := filled
  glyphs c hc := by
    obtain rfl | glyph := h.onLine c (List.mem_append_left cs hc)
    · exact absurd hc noSpace
    · exact glyph
  noComment := by
    obtain ⟨c, w, rfl⟩ := List.exists_cons_of_ne_nil filled
    exact h.begins
  noKey hlast := by
    obtain ⟨d, hd⟩ : ∃ d, d ∈ (cs ++ [endMark]).head? := by cases cs <;> simp
    exact absurd (next d hd) (by simp [(badInside_append h.inside).2.1 hlast d hd])

/-- What follows the spaces after a word of a plain text is a plain text. -/
theorem PlainText.rest {w cs : List Char} {n : Nat} (filled : 0 < n)
    (h : PlainText (w ++ (List.replicate n ' ' ++ cs))) : PlainText cs := by
  have blank : (List.replicate n ' ').getLast? = some ' ' := by
    simp [List.getLast?_replicate, Nat.ne_of_gt filled]
  have some_left : cs ≠ [] := by
    rintro rfl
    apply h.ends
    rw [List.append_nil, List.getLast?_append, blank]
    rfl
  obtain ⟨inside, -, comment⟩ := badInside_append (badInside_append h.inside).1
  refine ⟨some_left, fun c hc => h.onLine c (by simp [hc]), fun hhead => ?_, fun hlast => ?_, inside⟩
  · exact absurd (comment hhead ' ' blank) (by decide)
  · apply h.ends
    rw [List.getLast?_append, List.getLast?_append, hlast]
    rfl

/-- A plain text is words with spaces between them. -/
theorem phrase_of_plainText {rs : List Run} (alternate : Alternate rs) (proper : ∀ r ∈ rs, r.Proper)
    (begins : ∀ r ∈ rs.head?, r.isWord = true) (h : PlainText (rs.flatMap Run.chars)) :
    Phrase rs := by
  match rs with
  | [] => exact absurd rfl h.filled
  | .spaces n :: _ | .breaks n :: _ => exact absurd (begins _ rfl) nofun
  | [.word w] =>
    have fit := (proper (.word w) (by simp))
    exact .word (h.word fit.1 fit.2.1 (by simp [isBlankOrEnd, isSpaceOrEnd, isBreakOrEnd]))
  | .word w :: .word v :: _ => exact absurd rfl (List.isChain_cons_cons.1 alternate).1
  | .word w :: .breaks n :: rs =>
    have filled : n ≠ 0 := Nat.ne_of_gt (proper (.breaks n) (by simp))
    have := h.onLine '\n' (by simp [Run.chars, filled])
    exact absurd this (by decide)
  | .word w :: .spaces n :: rs =>
    have fit := (proper (.word w) (by simp))
    have filled : 0 < n := proper (.spaces n) (by simp)
    refine .cons (h.word fit.1 fit.2.1 ?_) filled (phrase_of_plainText alternate.of_cons.of_cons
      (fun r hr => proper r (by simp [hr])) ?_ (h.rest filled))
    · simp [Run.chars, List.head?_append, List.head?_replicate, Nat.ne_of_gt filled]
      decide
    · intro r hr
      obtain ⟨rs, rfl⟩ := List.head?_eq_some_iff.1 hr
      have := (List.isChain_cons_cons.1 alternate.of_cons).1
      simpa [Run.isWord] using this

/-! ## What layouts are made of -/

theorem visible_of_mem_margin {indent : Nat} {c : Char} (h : c ∈ margin indent) :
    isVisible c = true := by
  rw [List.eq_of_mem_replicate h]
  decide

theorem Gap.visible {indent : Nat} {double : Bool} {g o : List Char} (h : Gap indent double g o) :
    ∀ c ∈ o, isVisible c = true := by
  intro c hc
  cases h with
  | spaces => exact visible_of_mem_margin hc
  | fold =>
    rcases List.mem_cons.1 hc with rfl | hc
    · decide
    · exact visible_of_mem_margin hc
  | breaks =>
    rcases List.mem_append.1 hc with hc | hc
    · rw [List.eq_of_mem_replicate hc]
      decide
    · exact visible_of_mem_margin hc

theorem Phrase.visible {indent : Nat} {rs : List Run} {out : List Char} (h : Phrase rs)
    (laid : Laid indent false rs out) : ∀ c ∈ out, isVisible c = true := by
  induction h generalizing out with
  | word fit =>
    cases laid with
    | word _ rest =>
      cases rest
      simpa using fun c hc => (fit.glyphs c hc).visible
    | gap between => cases between
  | cons fit filled phrase ih =>
    cases laid with
    | word _ rest =>
      cases rest with
      | gap _ gap rest =>
        exact List.forall_mem_append.2 ⟨fun c hc => (fit.glyphs c hc).visible,
          List.forall_mem_append.2 ⟨gap.visible, ih rest⟩⟩
    | gap between => cases between

end Pinhole.Yaml
