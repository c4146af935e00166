import Pinhole.Config.Writer
import Pinhole.Proofs.Entries
import Pinhole.Proofs.Numerals
import Pinhole.Proofs.Sections

/-!
# Reading written settings

A settings file is read as the record of the settings that were written to it, whatever texts they
are (`read_sections`). A setting that is no text is a single word, and a number is read back if it is
positive and has no more digits than it may have.
-/

namespace Pinhole.Config

open Yaml

/-! ## Words -/

/-- The characters of the names of settings, and of the values that are no texts. -/
def isNameChar (c : Char) : Bool := c.isLower || c.isDigit || c == '_'

theorem glyph_of_isNameChar {c : Char} (h : isNameChar c = true) : Glyph c := by
  rw [isNameChar, Bool.or_eq_true, Bool.or_eq_true] at h
  rcases h with (lower | digit) | line
  · exact Lexer.glyph_of_isLower lower
  · obtain ⟨lo, hi⟩ := bounds_of_isDigit digit
    exact ⟨by omega, by omega⟩
  · rw [beq_iff_eq.1 line]
    exact ⟨by decide, by decide⟩

section Words

variable {w : List Char}

theorem plainWord_of_all (filled : w ≠ []) (h : ∀ c ∈ w, isNameChar c = true) : PlainWord w where
  filled := filled
  glyphs c mem := glyph_of_isNameChar (h c mem)
  noComment front := ne_of_class (p := isNameChar) (h '#' (List.mem_of_mem_head? front)) (by decide) rfl
  noKey last := ne_of_class (p := isNameChar) (h ':' (List.mem_of_getLast? last)) (by decide) rfl

/-- A word of such characters is laid out as it stands. -/
theorem scribed_word (indent : Nat) (filled : w ≠ []) (h : ∀ c ∈ w, isNameChar c = true) :
    Scribed indent .plain w w := by
  have front : badFront w = false := by
    obtain ⟨c, cs, rfl⟩ := List.exists_cons_of_ne_nil filled
    have first := h c List.mem_cons_self
    have own : isLeadingIndicator c = false := isLeadingIndicator_of_class (by decide) first
    have noMark : c ≠ '-' ∧ c ≠ '?' ∧ c ≠ ':' := by
      refine ⟨?_, ?_, ?_⟩ <;> exact ne_of_class first (by decide)
    simp [badFront, own, noMark]
  have laid : Laid indent false [.word w] (w ++ []) := .word w .nil
  rw [List.append_nil] at laid
  have chars : [Run.word w].flatMap Run.chars = w := by simp [Run.chars]
  rw [← chars] at front
  have scribed := Scribed.plain (.word (plainWord_of_all filled h)) front laid
  rwa [chars] at scribed

/-- The name of a setting. -/
structure IsSettingName (s : String) : Prop where
  chars : ∀ c ∈ s.toList, isNameChar c = true
  begins : ∃ c rest, s.toList = c :: rest ∧ c.isLower = true
  short : s.toList.length ≤ Lexer.maxKeyLength
  isText : Tag.resolve s = .str

theorem IsSettingName.isName {s : String} (h : IsSettingName s) : Lexer.IsName s.toList := by
  obtain ⟨c, rest, hfront, lower⟩ := h.begins
  refine ⟨plainWord_of_all (by simp [hfront]) h.chars, ?_, h.short⟩
  rw [hfront, Lexer.BeginsName]
  rintro _ ⟨⟩
  exact lower

theorem IsSettingName.visible {s : String} (h : IsSettingName s) :
    ∀ c ∈ s.toList, isVisible c = true :=
  fun c mem => (glyph_of_isNameChar (h.chars c mem)).visible

end Words

/-! ## Values as they are written -/

namespace Written

/-- The style of a value. -/
def style : Written → ScalarStyle
  | .text s => styleOf s
  | _ => .plain

/-- What stands for a value. -/
def content : Written → String
  | .nothing => "null"
  | .flag b => if b then "true" else "false"
  | .number n => toString n
  | .text s => s

/-- The value that is read back. -/
def value : Written → Value
  | .nothing => .null
  | .flag b => .bool b
  | .number n => .int n
  | .text s => .text s

/-- A number that can be written and read. -/
def Readable (w : Written) : Prop := ∀ n, w = .number n → 0 < n ∧ n.natAbs < writtenBound

/-- Numbers that can be written are those that can be read. -/
theorem writtenBound_eq : writtenBound = Nat.pow 10 maxDigits := by decide +kernel

/-- A positive number is written as its numeral. -/
theorem toString_of_positive {n : Int} (positive : 0 < n) :
    toString n = String.ofList (Nat.toDigits 10 n.natAbs) := by
  obtain ⟨m, rfl⟩ := Int.eq_ofNat_of_zero_le (Int.le_of_lt positive)
  exact Nat.toString_eq_ofList_toDigits

/-- A text is a scalar of its own style, and nothing but a text. -/
theorem scalarTag_styleOf (s : String) : Reading.scalarTag {} (styleOf s) s = .str := by
  rw [styleOf]
  split_ifs with plain
  · simp only [Bool.and_eq_true, beq_iff_eq] at plain
    simp [Reading.scalarTag, plain.2]
  · rfl
  · rfl

/-- The tag by which a value is read back. -/
def tag (w : Written) : Tag := Reading.scalarTag {} w.style w.content

/-- What is read back from a value is that value. -/
theorem contentOf_written {w : Written} (h : w.Readable) :
    Node.contentOf w.tag ⟨w.content, false⟩ = .ok w.value := by
  cases w with
  | nothing =>
    have tagged : tag .nothing = .null := by decide +kernel
    rw [tagged]
    rfl
  | flag b =>
    have tagged : tag (.flag b) = .bool := by cases b <;> decide +kernel
    have read : boolContent ⟨content (.flag b), false⟩ = .ok b := by cases b <;> decide +kernel
    rw [tagged]
    exact Node.contentOf_bool read
  | number n =>
    obtain ⟨positive, short⟩ := h n rfl
    have some : 0 < n.natAbs := by omega
    have spelled : content (.number n) = String.ofList (Nat.toDigits 10 n.natAbs) :=
      toString_of_positive positive
    have tagged : tag (.number n) = .int := by
      rw [tag, spelled]
      exact resolve_numeral some
    have read := intContent_numeral some (writtenBound_eq ▸ short)
    have same : (n.natAbs : Int) = n := by omega
    rw [same] at read
    rw [tagged, spelled]
    exact Node.contentOf_int read
  | text s =>
    have tagged : tag (.text s) = .str := scalarTag_styleOf s
    rw [tagged]
    exact Node.contentOf_text s

/-- What is written for a value stands for it. -/
theorem put_scribed {w : Written} (h : w.Readable) (s : Sheet) :
    ∃ out, Scribed textIndent w.style w.content.toList out ∧ s.Adds (w.put s) out := by
  cases w with
  | text t => exact putText_scribed (by decide) s t
  | nothing =>
    exact ⟨_, scribed_word textIndent (by decide) (List.all_eq_true.1 (by decide)), s.adds_put _⟩
  | flag b =>
    cases b <;>
      exact ⟨_, scribed_word textIndent (by decide) (List.all_eq_true.1 (by decide)), s.adds_put _⟩
  | number n =>
    obtain ⟨positive, -⟩ := h n rfl
    have spelled : (toString n).toList = Nat.toDigits 10 n.natAbs := by
      rw [toString_of_positive positive, String.toList_ofList]
    have digits : ∀ c ∈ (toString n).toList, isNameChar c = true := by
      rw [spelled]
      intro c mem
      simp [isNameChar, Nat.isDigit_of_mem_toDigits (by decide) (by decide) mem]
    exact ⟨_, scribed_word textIndent (spelled ▸ Nat.toDigits_ne_nil) digits, s.adds_put _⟩

end Written

/-! ## Lines and sections -/

/-- The sheet on which a setting has been written up to its value. -/
def opened (name : String) : Sheet := ({} : Sheet).put ("  " ++ name ++ ": ").toList

/-- A setting on its line: behind its name stands what is written for its value. -/
def lineOf (x : String × Written) : Line where
  name := x.1
  style := x.2.style
  content := x.2.content
  out := (x.2.put (opened x.1)).written.reverse.drop (opened x.1).written.length

/-- The section of some settings. -/
def sectionOfSettings (s : String × List (String × Written)) : Section := ⟨s.1, s.2.map lineOf⟩

/-- The entry of a setting that is read back. -/
def entryOf (x : String × Written) : Value × Value := (.text x.1, x.2.value)

/-- The entry of a section that is read back. -/
def entryOfSection (s : String × List (String × Written)) : Value × Value :=
  (.text s.1, .mapping (s.2.map entryOf))

/-- Settings that can be read back from the text that they are written as. -/
structure Legible (settings : List (String × Written)) : Prop where
  filled : settings ≠ []
  names : ∀ x ∈ settings, IsSettingName x.1
  distinct : (settings.map Prod.fst).Nodup
  values : ∀ x ∈ settings, x.2.Readable

theorem lineOf_scribed {x : String × Written} (h : x.2.Readable) :
    Scribed textIndent x.2.style x.2.content.toList (lineOf x).out ∧
      (settingLine x.1 x.2).toList = ("  " ++ x.1 ++ ": ").toList ++ ((lineOf x).out ++ ['\n']) := by
  obtain ⟨out, scribed, adds⟩ := Written.put_scribed h (opened x.1)
  have layout : (lineOf x).out = out := by
    have written : (x.2.put (opened x.1)).written = out.reverse ++ (opened x.1).written := adds
    rw [lineOf, written]
    simp
  refine ⟨layout ▸ scribed, ?_⟩
  have line := ((Sheet.adds_put {} ("  " ++ x.1 ++ ": ").toList).trans adds).trans (Sheet.adds_feed _)
  rw [settingLine, layout, ← List.append_assoc]
  exact (congrArg String.toList line.text_eq).trans String.toList_ofList

theorem fit_lineOf {x : String × Written} (name : IsSettingName x.1) (h : x.2.Readable) :
    (lineOf x).Fit textIndent :=
  ⟨name.isName, (lineOf_scribed h).1⟩

theorem visible_settingLine {x : String × Written} (name : IsSettingName x.1) (h : x.2.Readable) :
    ∀ c ∈ (settingLine x.1 x.2).toList, isVisible c = true := by
  obtain ⟨scribed, layout⟩ := lineOf_scribed h
  have margin : ∀ c ∈ "  ".toList, isVisible c = true := List.all_eq_true.1 (by decide)
  have colon : ∀ c ∈ ": ".toList, isVisible c = true := List.all_eq_true.1 (by decide)
  rw [layout]
  intro c mem
  simp only [String.toList_append, List.mem_append, List.mem_singleton] at mem
  rcases mem with ((mem | mem) | mem) | mem | rfl
  · exact margin c mem
  · exact name.visible c mem
  · exact colon c mem
  · exact scribed.visible c mem
  · decide

/-- The characters of a section. -/
theorem toList_sectionText (name : String) (settings : List (String × Written)) :
    (sectionText name settings).toList =
      name.toList ++ ":\n".toList ++ settings.flatMap fun x => (settingLine x.1 x.2).toList := by
  have text : sectionText name settings =
      name ++ ":\n" ++ String.join (settings.map fun x => settingLine x.1 x.2) := rfl
  rw [text]
  simp [List.flatMap_map]

/-- A section is written line by line. -/
theorem sectionText_eq (name : String) {settings : List (String × Written)} (h : Legible settings)
    (after : List Char) :
    (sectionText name settings).toList ++ after = name.toList ++ ':' :: '\n' ::
      (List.replicate Line.inset ' ' ++ Line.textOf after (settings.map lineOf)) := by
  have lines : settings.flatMap (fun x => (settingLine x.1 x.2).toList) =
      (settings.map lineOf).flatMap fun x => List.replicate Line.inset ' ' ++ x.name.toList ++
        ':' :: ' ' :: (x.out ++ ['\n']) := by
    rw [List.flatMap_map]
    refine List.flatMap_congr fun x mem => ?_
    rw [(lineOf_scribed (h.values x mem)).2]
    simp [lineOf, Line.inset, List.replicate_succ]
  have indented := Line.margin_textOf after (settings.map lineOf)
  have column : Line.columnOf (settings.map lineOf) = Line.inset := by
    simp [Line.columnOf, h.filled]
  rw [column] at indented
  rw [toList_sectionText, indented, ← lines]
  simp

/-! ## Fields -/

/-- Settings are the fields that their lines are read as. -/
theorem exists_settingFields {settings : List (String × Written)} (h : Legible settings) :
    ∃ fs : List Field, fs.flatMap Field.entry = (settings.map lineOf).flatMap Line.tokens ∧
      fs.map Field.pair = settings.map entryOf ∧ fs.map Field.name = settings.map Prod.fst := by
  rw [List.flatMap_map]
  refine Field.exists_fields fun x mem => ?_
  exact ⟨.scalar x.1 (h.names x mem).isText x.2.style x.2.content x.2.value
    (Written.contentOf_written (h.values x mem)), rfl, rfl, rfl⟩

/-- Sections of settings are the fields that they are read as. -/
theorem exists_sectionFields {ss : List (String × List (String × Written))}
    (names : ∀ s ∈ ss, IsSettingName s.1) (legible : ∀ s ∈ ss, Legible s.2) :
    ∃ fs : List Field,
      fs.flatMap Field.entry =
        (ss.map sectionOfSettings).flatMap (fun s => s.tokens ++ [.blockEnd]) ∧
      fs.map Field.pair = ss.map entryOfSection ∧
      fs.map Field.name = ss.map Prod.fst := by
  rw [List.flatMap_map]
  refine Field.exists_fields fun s mem => ?_
  obtain ⟨settings, entries, pairs, same⟩ := exists_settingFields (legible s mem)
  refine ⟨.nested s.1 (names s mem).isText settings (same ▸ (legible s mem).distinct), ?_, ?_, rfl⟩
  · simp [Field.entry, Field.nested, Field.mapping, entries, Section.tokens, sectionOfSettings]
  · simp [Field.pair, Field.nested, pairs, entryOfSection]

/-! ## Documents -/

section Documents

variable {ss : List (String × List (String × Written))}

/-- The characters of some sections. -/
def charsOf (ss : List (String × List (String × Written))) : List Char :=
  ss.flatMap fun s => (sectionText s.1 s.2).toList

theorem charsOf_eq (legible : ∀ s ∈ ss, Legible s.2) :
    charsOf ss = Section.textOf (ss.map sectionOfSettings) := by
  induction ss with
  | nil => rfl
  | cons s ss ih =>
    obtain ⟨first, others⟩ := List.forall_mem_cons.1 legible
    have rest := sectionText_eq s.1 first (Section.textOf (ss.map sectionOfSettings))
    rw [charsOf, List.flatMap_cons, ← charsOf, ih others, rest]
    rfl

/-- Sections that are written are read back. -/
theorem read_sections (filled : ss ≠ []) (names : ∀ s ∈ ss, IsSettingName s.1)
    (distinct : (ss.map Prod.fst).Nodup) (legible : ∀ s ∈ ss, Legible s.2) :
    Yaml.read ⟨charsOf ss, none⟩ = .ok (.mapping (ss.map entryOfSection)) := by
  obtain ⟨fs, entries, pairs, same⟩ := exists_sectionFields names legible
  have fit : ∀ x ∈ ss.map sectionOfSettings, x.Fit textIndent := by
    intro x hx
    obtain ⟨s, mem, rfl⟩ := List.mem_map.1 hx
    have settings := legible s mem
    refine ⟨(names s mem).isName, by simpa [sectionOfSettings] using settings.filled, ?_⟩
    intro line hline
    obtain ⟨y, hy, rfl⟩ := List.mem_map.1 hline
    exact fit_lineOf (settings.names y hy) (settings.values y hy)
  have lexed := tokens_of_sections (by simpa using filled) fit (by decide)
  have layout : Section.tokensOf (ss.map sectionOfSettings) = Field.mapping fs ++ [.streamEnd] := by
    simp [Section.tokensOf, Field.mapping, entries]
  rw [layout, ← charsOf_eq legible] at lexed
  rw [read_of_fields (same ▸ distinct) lexed, pairs]

/-- What is written is visible, so it is stored and read as it stands. -/
theorem visible_charsOf (names : ∀ s ∈ ss, IsSettingName s.1) (legible : ∀ s ∈ ss, Legible s.2) :
    ∀ c ∈ charsOf ss, isVisible c = true := by
  intro c mem
  obtain ⟨s, hs, mem⟩ := List.mem_flatMap.1 mem
  rw [toList_sectionText, List.mem_append, List.mem_append] at mem
  rcases mem with (mem | mem) | mem
  · exact (names s hs).visible c mem
  · have ends : ∀ c ∈ ":\n".toList, isVisible c = true := List.all_eq_true.1 (by decide)
    exact ends c mem
  · obtain ⟨x, hx, mem⟩ := List.mem_flatMap.1 mem
    exact visible_settingLine ((legible s hs).names x hx) ((legible s hs).values x hx) c mem

end Documents

end Pinhole.Config
