import Mathlib.Data.List.Basic
import Pinhole.Yaml.Content

/-!
# Integers as they are written

The decimal numeral of a positive integer is read as that integer, as long as it has no more digits
than an integer may have: it is the spelling of an integer and of nothing else (`resolve_numeral`),
and its content is the number that it spells (`intContent_numeral`).
-/

namespace Pinhole.Yaml

/-- Decimal digits of which the first is no zero. -/
structure Numeral (cs : List Char) : Prop where
  digits : ∀ c ∈ cs, c.isDigit = true
  front : ∃ c rest, cs = c :: rest ∧ c ≠ '0'

theorem bounds_of_isDigit {c : Char} (h : c.isDigit = true) : 0x30 ≤ c.toNat ∧ c.toNat ≤ 0x39 :=
  Char.isDigit_iff_toNat.1 h

theorem digitChar_ne_zero : ∀ n < 10, 0 < n → n.digitChar ≠ '0' := by decide

/-- The numeral of a positive number. -/
theorem numeral_toDigits {n : Nat} (positive : 0 < n) : Numeral (Nat.toDigits 10 n) := by
  refine ⟨fun c => Nat.isDigit_of_mem_toDigits (by decide) (by decide), ?_⟩
  induction n using Nat.strongRecOn with
  | ind n ih =>
    rw [Nat.toDigits_eq_if (by decide)]
    split_ifs with small
    · exact ⟨n.digitChar, [], rfl, digitChar_ne_zero n small positive⟩
    · obtain ⟨c, rest, hfront, hc⟩ := ih (n / 10) (by omega) (by omega)
      exact ⟨c, rest ++ [(n % 10).digitChar], by rw [hfront]; rfl, hc⟩

namespace Numeral

variable {cs : List Char}

theorem not_mem (h : Numeral cs) {d : Char} (other : d.isDigit = false) : d ∉ cs := by
  intro mem
  rw [h.digits d mem] at other
  cases other

theorem unsigned_eq (h : Numeral cs) : Tag.unsigned cs = cs := by
  obtain ⟨c, rest, rfl, -⟩ := h.front
  have digit := h.digits c List.mem_cons_self
  rw [Tag.unsigned]
  · rintro _ ⟨rfl, -⟩
    cases digit
  · rintro _ ⟨rfl, -⟩
    cases digit

theorem isNegative_eq (h : Numeral cs) : isNegative cs = false := by
  obtain ⟨c, rest, rfl, -⟩ := h.front
  have other : c ≠ '-' := fun e => h.not_mem (d := '-') rfl (e ▸ List.mem_cons_self)
  simpa [isNegative] using other

/-- A numeral is none of some words. -/
theorem not_contains (h : Numeral cs) {words : List String}
    (other : words.all (fun s => s.toList.isEmpty || s.toList.any (!·.isDigit)) = true) :
    words.contains (String.ofList cs) = false := by
  rw [← Bool.not_eq_true, List.contains_iff_mem]
  intro mem
  have noNumeral := List.all_eq_true.1 other _ mem
  rw [String.toList_ofList, Bool.or_eq_true, List.isEmpty_iff, List.any_eq_true] at noNumeral
  obtain ⟨c, rest, hfront, -⟩ := h.front
  rcases noNumeral with empty | ⟨d, hd, noDigit⟩
  · rw [hfront] at empty
    cases empty
  · exact h.not_mem (by simpa using noDigit) hd

theorem takeWhile_eq {p : Char → Bool} (h : Numeral cs) (digits : ∀ c : Char, c.isDigit = true → p c) :
    cs.takeWhile p = cs := by
  simpa using @List.takeWhile_append_of_pos _ p cs [] fun c mem => digits c (h.digits c mem)

/-- The parts of a text without colons. -/
theorem colonParts_eq {cs : List Char} (h : ':' ∉ cs) : Tag.colonParts cs = [cs] := by
  rw [Tag.colonParts]
  induction cs with
  | nil => rfl
  | cons c cs ih =>
    rw [List.mem_cons, not_or] at h
    rw [List.foldr_cons, ih h.2]
    simp [Ne.symm h.1]

/-! ### The tag -/

theorem isFloat_eq (h : Numeral cs) : Tag.isFloat cs = false := by
  have grouped : cs.takeWhile Tag.isGrouped = cs :=
    h.takeWhile_eq fun c hc => by simp [Tag.isGrouped, hc]
  have pointless : cs.takeWhile (· != '.') = cs :=
    h.takeWhile_eq fun c hc => by
      rw [bne_iff_ne]
      rintro rfl
      cases hc
  have sixties : Tag.isSixtiesFloat cs = false := by
    simp [Tag.isSixtiesFloat, pointless, colonParts_eq (h.not_mem (d := ':') rfl)]
  have inf : [".inf", ".Inf", ".INF"].contains (String.ofList cs) = false :=
    h.not_contains (by decide)
  have nan : [".nan", ".NaN", ".NAN"].contains (String.ofList cs) = false :=
    h.not_contains (by decide)
  have noPoint (d : Char) (ds : List Char) : cs ≠ '.' :: d :: ds := by
    rintro rfl
    exact h.not_mem (d := '.') rfl List.mem_cons_self
  rw [Tag.isFloat.eq_def]
  dsimp only
  rw [h.unsigned_eq, grouped, List.drop_length, sixties, inf, nan]
  split
  · cases ‹_›
  · split
    · exact absurd rfl (noPoint _ _)
    · rfl

theorem isInt_eq (h : Numeral cs) : Tag.isInt cs = true := by
  have parts := colonParts_eq (h.not_mem (d := ':') rfl)
  have unsigned := h.unsigned_eq
  obtain ⟨c, rest, rfl, notZero⟩ := h.front
  obtain ⟨first, others⟩ := List.forall_mem_cons.1 h.digits
  have grouped : rest.all Tag.isGrouped = true :=
    List.all_eq_true.2 fun d mem => by simp [Tag.isGrouped, others d mem]
  rw [Tag.isInt.eq_def]
  dsimp only
  rw [unsigned]
  split
  case h_5 =>
    rw [parts]
    simp [Tag.isPositiveGroup, Tag.isDigitGroup, first, grouped, notZero]
  all_goals
    rename_i heq
    exact absurd (List.cons.inj heq).1 notZero

/-- A numeral is an integer by its spelling. -/
theorem resolve_eq (h : Numeral cs) : Tag.resolve (String.ofList cs) = .int := by
  have noFeed : (String.ofList cs == "\n") = false := by
    have none : ["\n"].contains (String.ofList cs) = false := h.not_contains (by decide)
    simpa using none
  have last : withoutFinalBreak cs = cs := by
    rw [withoutFinalBreak, if_neg]
    rw [beq_iff_eq]
    exact fun hlast => h.not_mem (d := '\n') rfl (List.mem_of_getLast? hlast)
  have null : Tag.isNull (String.ofList cs) = false := h.not_contains (by decide)
  have bool : Tag.isBool (String.ofList cs) = false := h.not_contains (by decide)
  rw [Tag.resolve, noFeed]
  simp [Tag.resolveLine, last, null, bool, h.isFloat_eq, h.isInt_eq]

/-! ### The content -/

theorem ungrouped_eq (h : Numeral cs) : ungrouped cs = cs := by
  refine List.filter_eq_self.2 fun c mem => ?_
  rw [bne_iff_ne]
  rintro rfl
  exact h.not_mem (d := '_') rfl mem

/-- A digit is no blank. -/
theorem isNumberBlank_of_isDigit {c : Char} (h : c.isDigit = true) :
    Text.isNumberBlank c = false := by
  obtain ⟨lo, hi⟩ := bounds_of_isDigit h
  simp [Text.isNumberBlank, Text.isBlank]
  omega

/-- What a numeral comes down to is the numeral itself. -/
theorem numberText_eq (h : Numeral cs) : numberText cs = cs := by
  have keep : ∀ c ∈ cs, Text.isNumberBlank c = false :=
    fun c mem => isNumberBlank_of_isDigit (h.digits c mem)
  have trimmed : Text.trimmed Text.isNumberBlank cs = cs := by
    obtain ⟨c, rest, hfront, -⟩ := h.front
    have front : cs.dropWhile Text.isNumberBlank = cs := by
      rw [hfront, List.dropWhile_cons_of_neg (by simp [keep c (hfront ▸ List.mem_cons_self)])]
    rw [Text.trimmed, front]
    obtain ⟨before, last, rfl⟩ := List.eq_nil_or_concat cs |>.resolve_left (by simp [hfront])
    rw [List.concat_eq_append] at keep ⊢
    exact Text.dropEndWhile_append_singleton before (keep last (by simp))
  rw [numberText, trimmed, withPlainDigits]
  refine (List.map_congr_left fun c mem => ?_).trans (List.map_id _)
  have digit := h.digits c mem
  have same : '0'.toNat + (c.toNat - '0'.toNat) = c.toNat :=
    Nat.add_sub_cancel' (bounds_of_isDigit digit).1
  rw [Text.decimalValue?_of_isDigit digit, Option.map_some, same, Option.getD_some, Char.ofNat_toNat]
  rfl

theorem digitIn?_of_isDigit {c : Char} (h : c.isDigit = true) :
    digitIn? 10 c = some (c.toNat - '0'.toNat) := by
  have small : c.toNat - '0'.toNat < 10 := by
    have := bounds_of_isDigit h
    have : '0'.toNat = 0x30 := rfl
    omega
  have range : '0' ≤ c ∧ c ≤ '9' := by
    simp only [Char.isDigit, Bool.and_eq_true, decide_eq_true_eq] at h
    exact h
  rw [digitIn?, Text.hexValue?, if_pos range, Option.filter_some, if_pos (decide_eq_true small)]

/-- The number that the digits of a numeral spell. -/
theorem digitsIn?_eq (h : Numeral cs) : digitsIn? 10 cs = some (Nat.ofDigitChars 10 cs 0) := by
  have spelled (n : Nat) : cs.foldl (fun acc c => acc.bind fun n => (digitIn? 10 c).map (10 * n + ·))
      (some n) = some (Nat.ofDigitChars 10 cs n) := by
    have digits := h.digits
    clear h
    induction cs generalizing n with
    | nil => rfl
    | cons c cs ih =>
      obtain ⟨first, others⟩ := List.forall_mem_cons.1 digits
      rw [List.foldl_cons, Option.bind_some, digitIn?_of_isDigit first, Option.map_some,
        Nat.ofDigitChars_cons]
      exact ih _ others
  obtain ⟨c, rest, hfront, -⟩ := h.front
  rw [digitsIn?, spelled, hfront]
  rfl

/-- The content of a numeral is the number that it spells. -/
theorem intContent_eq (h : Numeral cs) (short : cs.length ≤ maxDigits) :
    intContent ⟨String.ofList cs, false⟩ = .ok (Nat.ofDigitChars 10 cs 0 : Nat) := by
  have noColon : cs.contains ':' = false := by
    simpa using h.not_mem (d := ':') rfl
  have run : (cs.takeWhile fun c => (digitIn? 10 c).isSome) = cs :=
    h.takeWhile_eq fun c hc => by rw [digitIn?_of_isDigit hc]; rfl
  have whole : integerIn ⟨String.ofList cs, false⟩ 10 cs =
      .ok (Nat.ofDigitChars 10 cs 0 : Nat) := by
    have mark : withoutBaseMark 10 cs = cs := rfl
    have fits : (10 == 10 && decide (maxDigits < cs.length)) = false := by
      simpa using short
    rw [integerIn, h.numberText_eq, h.unsigned_eq, mark, run, fits, h.digitsIn?_eq, h.isNegative_eq]
    rfl
  have unsigned := h.unsigned_eq
  have ungrouped := h.ungrouped_eq
  have positive := h.isNegative_eq
  obtain ⟨c, rest, rfl, notZero⟩ := h.front
  rw [intContent.eq_def]
  simp only [String.toList_ofList, ungrouped, unsigned, positive, List.isEmpty_cons,
    Bool.false_eq_true, if_false, bind, Except.bind]
  split
  case h_6 =>
    rw [noColon, if_neg Bool.false_ne_true, whole]
    rfl
  case h_1 heq => cases heq
  all_goals
    rename_i heq
    exact absurd (List.cons.inj heq).1 notZero

end Numeral

/-- A numeral has no more digits than its number allows. -/
theorem length_numeral_le {n k : Nat} (positive : 0 < k) (bound : n < Nat.pow 10 k) :
    (Nat.toDigits 10 n).length ≤ k :=
  (Nat.length_toDigits_le_iff (by decide) positive).2 bound

/-- The numeral of a positive integer is read as that integer. -/
theorem intContent_numeral {n : Nat} (positive : 0 < n) (short : n < Nat.pow 10 maxDigits) :
    intContent ⟨String.ofList (Nat.toDigits 10 n), false⟩ = .ok (n : Int) := by
  rw [(numeral_toDigits positive).intContent_eq (length_numeral_le (by decide) short),
    Nat.ofDigitChars_ten_toDigits]

/-- The numeral of a positive integer is the spelling of an integer. -/
theorem resolve_numeral {n : Nat} (positive : 0 < n) :
    Tag.resolve (String.ofList (Nat.toDigits 10 n)) = .int :=
  (numeral_toDigits positive).resolve_eq

end Pinhole.Yaml
