import Mathlib.Data.List.DropRight
import Mathlib.Data.List.Nodup
import Mathlib.Tactic.SplitIfs
import Pinhole.Json.Reader
import Pinhole.Json.Writer
import Pinhole.Proofs.Digits

/-!
# JSON text is read back

What is written for a value is read as this value again: a string character by character, whatever
escapes it is written with, a number by its digits, and lists and mappings part by part. Each reader
is followed with what stands behind the part that it reads as a parameter.

A value is `Tellable` if its text tells all of it, and then `read_write` says that it is read back.
Numbers with a fraction are left out, and so are mappings whose entries the writer would put into
another order. The text is one line of ASCII (`Tellable.visible`).
-/

namespace Pinhole.Json

/-! ## Strings -/

theorem readUnit_hexDigits {n : Nat} (h : n < 0x10000) (rest : List Char) :
    readUnit (Text.hexDigits .lower 4 n ++ rest) = some (n, rest) := by
  have hlength : (Text.hexDigits .lower 4 n).length = 4 := Text.length_hexDigits .lower 4 n
  rw [readUnit, if_neg (by simp), List.take_left' hlength, List.drop_left' hlength,
    Text.hexNumber?_hexDigits .lower h]
  rfl

/-- A character of one unit is no surrogate, and is read from the escape of its unit. -/
theorem readEscapedUnit_single {c : Char} (h : c.toNat < 0x10000) (rest : List Char) :
    readEscapedUnit (Text.hexDigits .lower 4 c.toNat ++ rest) = some (c, rest) := by
  have hvalid : c.toNat < 0xD800 ∨ 0xDFFF < c.toNat ∧ c.toNat < 0x110000 := c.valid
  simp only [readEscapedUnit, readUnit_hexDigits h, Option.bind_eq_bind, Option.bind_some]
  rw [if_neg (by omega), if_neg (by omega), Char.ofNat_toNat]

/-- Two surrogates, a high one and a low one, are read as one character. -/
theorem readEscapedUnit_surrogates {n m : Nat} (high : 0xD800 ≤ n ∧ n < 0xDC00)
    (low : 0xDC00 ≤ m ∧ m < 0xE000) (rest : List Char) :
    readEscapedUnit (Text.hexDigits .lower 4 n ++ (escapedUnit m ++ rest)) =
      some (Char.ofNat (0x10000 + (n - 0xD800) * 0x400 + (m - 0xDC00)), rest) := by
  have hn : n < 0x10000 := by omega
  have hm : m < 0x10000 := by omega
  simp only [readEscapedUnit, escapedUnit, List.cons_append, readUnit_hexDigits hn,
    readUnit_hexDigits hm, Option.bind_eq_bind, Option.bind_some]
  rw [if_pos high, if_pos low]

/-- A character of two units is read from the escapes of both. -/
theorem readEscapedUnit_pair {c : Char} (h : 0x10000 ≤ c.toNat) (rest : List Char) :
    readEscapedUnit (Text.hexDigits .lower 4 (0xD800 + (c.toNat - 0x10000) / 0x400) ++
      (escapedUnit (0xDC00 + (c.toNat - 0x10000) % 0x400) ++ rest)) = some (c, rest) := by
  have hvalid : c.toNat < 0xD800 ∨ 0xDFFF < c.toNat ∧ c.toNat < 0x110000 := c.valid
  have hlow : (c.toNat - 0x10000) % 0x400 < 0x400 := Nat.mod_lt _ (by decide)
  have hwhole : 0x10000 + (0xD800 + (c.toNat - 0x10000) / 0x400 - 0xD800) * 0x400 +
      (0xDC00 + (c.toNat - 0x10000) % 0x400 - 0xDC00) = c.toNat := by omega
  rw [readEscapedUnit_surrogates (by omega) (by omega), hwhole, Char.ofNat_toNat]

/-- A character that is neither a quote nor a backslash nor a control character is read as it
stands. -/
theorem readText_plain (fuel : Nat) (acc : List Char) {c : Char} (quote : c ≠ '"')
    (backslash : c ≠ '\\') (visible : 0x20 ≤ c.toNat) (rest : List Char) :
    readText (fuel + 1) acc (c :: rest) = readText fuel (c :: acc) rest := by
  rw [readText, if_neg (by simpa [isControl] using visible)]
  · exact quote
  · exact fun _ h => absurd h backslash
  · exact fun _ _ h => absurd h backslash

theorem readText_unit (fuel : Nat) (acc : List Char) (n : Nat) {c : Char} {rest rest' : List Char}
    (h : readEscapedUnit (Text.hexDigits .lower 4 n ++ rest) = some (c, rest')) :
    readText (fuel + 1) acc (escapedUnit n ++ rest) = readText fuel (c :: acc) rest' := by
  rw [escapedUnit, List.cons_append, List.cons_append, readText, h]
  rfl

/-- What is written for a character is read as that character. -/
theorem readText_escaped (fuel : Nat) (acc : List Char) (c : Char) (rest : List Char) :
    readText (fuel + 1) acc (escaped c ++ rest) = readText fuel (c :: acc) rest := by
  unfold escaped
  split_ifs with quote backslash newline return_ tab backspace feed visible single
  · subst quote; rfl
  · subst backslash; rfl
  · subst newline; rfl
  · subst return_; rfl
  · subst tab; rfl
  · rw [← Char.ofNat_toNat c, backspace]; rfl
  · rw [← Char.ofNat_toNat c, feed]; rfl
  · exact readText_plain fuel acc quote backslash visible.1 rest
  · exact readText_unit fuel acc _ (readEscapedUnit_single single rest)
  · rw [List.append_assoc]
    exact readText_unit fuel acc _ (readEscapedUnit_pair (by omega) rest)

theorem readText_flatMap {cs : List Char} {fuel : Nat} (enough : cs.length ≤ fuel)
    (acc rest : List Char) :
    readText fuel acc (cs.flatMap escaped ++ '"' :: rest) =
      some (String.ofList (acc.reverse ++ cs), rest) := by
  induction cs generalizing fuel acc with
  | nil =>
    rw [List.append_nil]
    cases fuel <;> rfl
  | cons c cs ih =>
    obtain ⟨fuel, rfl⟩ : ∃ n, fuel = n + 1 := ⟨fuel - 1, by rw [List.length_cons] at enough; omega⟩
    rw [List.flatMap_cons, List.append_assoc, readText_escaped, ih (by simpa using enough)]
    simp

/-- What is written for a character is not nothing. -/
theorem escaped_ne_nil (c : Char) : escaped c ≠ [] := by
  unfold escaped escapedUnit
  split_ifs <;> simp

theorem length_le_flatMap_escaped (cs : List Char) : cs.length ≤ (cs.flatMap escaped).length := by
  induction cs with
  | nil => exact Nat.le_refl 0
  | cons c cs ih =>
    have hc := List.length_pos_iff.2 (escaped_ne_nil c)
    rw [List.flatMap_cons, List.length_append, List.length_cons]
    omega

/-- A string is read back after its opening quote. -/
theorem readText_written (s : String) (rest : List Char) :
    readText (s.toList.flatMap escaped ++ '"' :: rest).length []
      (s.toList.flatMap escaped ++ '"' :: rest) = some (s, rest) := by
  have hlength := length_le_flatMap_escaped s.toList
  have enough : s.toList.length ≤ (s.toList.flatMap escaped ++ '"' :: rest).length := by
    rw [List.length_append]
    omega
  rw [readText_flatMap enough, List.reverse_nil, List.nil_append, String.ofList_toList]

/-! ## Numbers -/

/-- What stands behind a value: nothing, or what parts it from others. -/
def Ends (cs : List Char) : Prop :=
  cs = [] ∨ ∃ c rest, cs = c :: rest ∧ (c = ',' ∨ c = ']' ∨ c = '\x7d')

theorem ends_comma (rest : List Char) : Ends (',' :: rest) := .inr ⟨',', rest, rfl, by simp⟩

theorem ends_bracket (rest : List Char) : Ends (']' :: rest) := .inr ⟨']', rest, rfl, by simp⟩

theorem ends_brace (rest : List Char) : Ends ('\x7d' :: rest) :=
  .inr ⟨'\x7d', rest, rfl, by simp⟩

theorem Ends.not_isDigit {rest : List Char} (ends : Ends rest) :
    rest.takeWhile Char.isDigit = [] := by
  rcases ends with rfl | ⟨c, rest, rfl, rfl | rfl | rfl⟩ <;> rfl

theorem Ends.readExponent {rest : List Char} (ends : Ends rest) :
    readExponent rest = some (none, rest) := by
  rcases ends with rfl | ⟨c, rest, rfl, rfl | rfl | rfl⟩ <;> rfl

/-- Digits of which a zero in front is the only one are all read. -/
theorem wholeDigits_append {ds rest : List Char} (digits : ∀ c ∈ ds, c.isDigit = true)
    (ne : ds ≠ []) (plain : ∀ cs, ds = '0' :: cs → cs = []) (ends : Ends rest) :
    wholeDigits (ds ++ rest) = ds := by
  unfold wholeDigits
  split
  · rename_i cs front
    obtain ⟨d, ds, rfl⟩ := List.exists_cons_of_ne_nil ne
    obtain ⟨rfl, -⟩ := List.cons.inj front
    rw [plain ds rfl]
  · rw [List.takeWhile_append_of_pos digits, ends.not_isDigit, List.append_nil]

/-- Digits with or without a sign are read as an integer. -/
theorem readNumber_digits {ds rest : List Char} (digits : ∀ c ∈ ds, c.isDigit = true) (ne : ds ≠ [])
    (plain : ∀ cs, ds = '0' :: cs → cs = []) (ends : Ends rest) :
    readNumber (ds ++ rest) = some (.int (digitsValue ds), rest) ∧
      readNumber ('-' :: ds ++ rest) = some (.int (-digitsValue ds), rest) := by
  have whole : wholeDigits (ds ++ rest) = ds := wholeDigits_append digits ne plain ends
  have some_digit : ds.isEmpty = false := List.isEmpty_eq_false_iff.2 ne
  constructor
  · unfold readNumber
    split
    rename_i h
    split at h
    · rename_i signed
      cases ds with
      | nil => exact absurd rfl ne
      | cons d ds =>
        obtain ⟨rfl, -⟩ := List.cons.inj signed
        cases digits '-' List.mem_cons_self
    · cases h
      simp only [whole, some_digit, Bool.false_eq_true, if_false, List.drop_left]
      rcases ends with rfl | ⟨c, rest, rfl, rfl | rfl | rfl⟩ <;> rfl
  · unfold readNumber
    simp only [List.cons_append, whole, some_digit, Bool.false_eq_true, if_false, List.drop_left]
    rcases ends with rfl | ⟨c, rest, rfl, rfl | rfl | rfl⟩ <;> rfl

/-- An integer is read back. -/
theorem readNumber_toString (n : Int) {rest : List Char} (ends : Ends rest) :
    readNumber ((toString n).toList ++ rest) = some (.int n, rest) := by
  have digits : ∀ m, ∀ c ∈ Nat.toDigits 10 m, c.isDigit = true :=
    fun m c => Nat.isDigit_of_mem_toDigits (by decide) (by decide)
  have reads := fun m =>
    readNumber_digits (digits m) Nat.toDigits_ne_nil (fun _ => eq_nil_of_toDigits) ends
  cases n with
  | ofNat m =>
    rw [toList_toString_ofNat, (reads m).1, digitsValue, Nat.ofDigitChars_ten_toDigits]
    rfl
  | negSucc m =>
    rw [toList_toString_negSucc, (reads (m + 1)).2, digitsValue, Nat.ofDigitChars_ten_toDigits]
    rfl

/-- A numeral begins with a digit, or with a sign and a digit. -/
theorem exists_digit_toString (n : Int) : ∃ d ds, d.isDigit = true ∧
    ((toString n).toList = d :: ds ∨ (toString n).toList = '-' :: d :: ds) := by
  have front (m : Nat) : ∃ d ds, d.isDigit = true ∧ Nat.toDigits 10 m = d :: ds := by
    obtain ⟨d, ds, h⟩ := List.exists_cons_of_ne_nil (Nat.toDigits_ne_nil (b := 10) (n := m))
    exact ⟨d, ds, Nat.isDigit_of_mem_toDigits (by decide) (by decide) (h ▸ List.mem_cons_self), h⟩
  cases n with
  | ofNat m =>
    obtain ⟨d, ds, digit, h⟩ := front m
    exact ⟨d, ds, digit, Or.inl (by rw [toList_toString_ofNat, h])⟩
  | negSucc m =>
    obtain ⟨d, ds, digit, h⟩ := front (m + 1)
    exact ⟨d, ds, digit, Or.inr (by rw [toList_toString_negSucc, h])⟩

/-! ## Values of one token -/

/-- A word does not stand where another character does. -/
theorem afterWord_of_ne (word : String) {c d : Char} {w : List Char}
    (hword : word.toList = c :: w) (ne : d ≠ c) (cs : List Char) :
    afterWord word (d :: cs) = none := by
  rw [afterWord, hword, List.isPrefixOf, beq_false_of_ne (Ne.symm ne)]
  rfl

theorem ne_of_isDigit {c d : Char} (digit : d.isDigit = true) (other : c.isDigit = false) :
    d ≠ c := fun e => by
  rw [e, other] at digit
  cases digit

/-- What begins like none of the words that stand for values is a number. -/
theorem readPlain_of_not_mem {c : Char} (other : c ∉ ['n', 't', 'f', 'N', 'I']) {cs : List Char}
    (finite : afterWord "-Infinity" (c :: cs) = none) :
    readPlain (c :: cs) = readNumber (c :: cs) := by
  simp only [List.mem_cons, List.not_mem_nil, or_false, not_or] at other
  obtain ⟨null, true_, false_, nan, infinity⟩ := other
  simp only [readPlain, afterWord_of_ne "null" rfl null,
    afterWord_of_ne "true" rfl true_, afterWord_of_ne "false" rfl false_,
    afterWord_of_ne "NaN" rfl nan, afterWord_of_ne "Infinity" rfl infinity,
    finite]
  rfl

/-- What is neither a blank nor begins a string, a list or a mapping is a value of one token. -/
theorem readValue_of_not_mem (fuel : Nat) {c : Char}
    (other : c ∉ [' ', '\n', '\r', '\t', '"', '[', '\x7b']) (cs : List Char) :
    readValue (fuel + 1) (c :: cs) = readPlain (c :: cs) := by
  simp only [List.mem_cons, List.not_mem_nil, or_false, not_or] at other
  obtain ⟨space, newline, return_, tab, text, list, mapping⟩ := other
  have visible : isSpace c = false := by simp [isSpace, space, newline, return_, tab]
  rw [readValue, skip, List.dropWhile_cons_of_neg (by simp [visible])]
  split
  · exact absurd (List.cons.inj ‹_›).1 text
  · exact absurd (List.cons.inj ‹_›).1 list
  · exact absurd (List.cons.inj ‹_›).1 mapping
  · rfl

theorem readValue_int (fuel : Nat) (n : Int) {rest : List Char} (ends : Ends rest) :
    readValue (fuel + 1) ((toString n).toList ++ rest) = some (.int n, rest) := by
  have number := readNumber_toString n ends
  obtain ⟨d, ds, digit, front⟩ := exists_digit_toString n
  have other {cs : List Char} (h : cs.all (!·.isDigit) = true) : d ∉ cs := fun mem =>
    ne_of_isDigit digit (by simpa using List.all_eq_true.1 h d mem) rfl
  rcases front with front | front
  · rw [front, List.cons_append] at number ⊢
    have finite : afterWord "-Infinity" (d :: (ds ++ rest)) = none :=
      afterWord_of_ne "-Infinity" rfl (ne_of_isDigit digit (c := '-') rfl) _
    rw [readValue_of_not_mem fuel (other rfl), readPlain_of_not_mem (other rfl) finite, number]
  · rw [front, List.cons_append, List.cons_append] at number ⊢
    have finite : afterWord "-Infinity" ('-' :: d :: (ds ++ rest)) = none := by
      have ne : ('I' == d) = false := beq_false_of_ne (ne_of_isDigit digit rfl).symm
      simp [afterWord, List.isPrefixOf, ne]
    rw [readValue_of_not_mem fuel (by decide), readPlain_of_not_mem (by decide) finite, number]

theorem readValue_null (fuel : Nat) (rest : List Char) :
    readValue (fuel + 1) ("null".toList ++ rest) = some (.null, rest) :=
  readValue_of_not_mem fuel (by decide) _

theorem readValue_true (fuel : Nat) (rest : List Char) :
    readValue (fuel + 1) ("true".toList ++ rest) = some (.bool true, rest) :=
  readValue_of_not_mem fuel (by decide) _

theorem readValue_false (fuel : Nat) (rest : List Char) :
    readValue (fuel + 1) ("false".toList ++ rest) = some (.bool false, rest) :=
  readValue_of_not_mem fuel (by decide) _

theorem toList_writeText (s : String) :
    (writeText s).toList = '"' :: s.toList.flatMap escaped ++ ['"'] := String.toList_ofList

theorem readValue_text (fuel : Nat) (s : String) (rest : List Char) :
    readValue (fuel + 1) ((writeText s).toList ++ rest) = some (.text s, rest) := by
  have hskip (cs : List Char) : skip ('"' :: cs) = '"' :: cs := rfl
  rw [toList_writeText, List.append_assoc, List.cons_append, readValue]
  simp only [hskip, List.singleton_append, readText_written]
  rfl

/-! ## Lists -/

/-- The text of a value is read as this value, whatever it is parted from. -/
def ReadBack (v : Value) : Prop :=
  ∀ fuel rest, (write v).length ≤ fuel → Ends rest →
    readValue (fuel + 1) ((write v).toList ++ rest) = some (v, rest)

theorem skip_space (cs : List Char) : skip (' ' :: cs) = skip cs := rfl

theorem skip_skip (cs : List Char) : skip (skip cs) = skip cs := List.dropWhile_idempotent _ cs

section Parts

variable {fuel : Nat} {v : Value} {cs rest : List Char}

/-- Blanks in front of a value are passed over. -/
theorem readValue_skip (fuel : Nat) (cs : List Char) :
    readValue fuel (skip cs) = readValue fuel cs := by
  cases fuel with
  | zero => rfl
  | succ fuel => rw [readValue, readValue, skip_skip]

theorem readItems_skip (fuel : Nat) (acc : List Value) (cs : List Char) :
    readItems fuel acc (skip cs) = readItems fuel acc cs := by
  cases fuel with
  | zero => rfl
  | succ fuel => rw [readItems, readItems, readValue_skip]

theorem readValue_space (fuel : Nat) (cs : List Char) :
    readValue fuel (' ' :: cs) = readValue fuel cs := by
  rw [← readValue_skip, skip_space, readValue_skip]

theorem readItems_space (fuel : Nat) (acc : List Value) (cs : List Char) :
    readItems fuel acc (' ' :: cs) = readItems fuel acc cs := by
  rw [← readItems_skip, skip_space, readItems_skip]

theorem readItems_last (acc : List Value) (h : readValue fuel cs = some (v, ']' :: rest)) :
    readItems (fuel + 1) acc cs = some (.list (v :: acc).reverse, rest) := by
  rw [readItems, h]
  rfl

theorem readItems_next (acc : List Value) (h : readValue fuel cs = some (v, ',' :: ' ' :: rest)) :
    readItems (fuel + 1) acc cs = readItems fuel (v :: acc) rest := by
  rw [readItems, h]
  exact readItems_space fuel _ rest

/-- No list of items begins with a closing bracket. -/
theorem readItems_eq_none (fuel : Nat) (acc : List Value) (h : skip cs = ']' :: rest) :
    readItems fuel acc cs = none := by
  rw [← readItems_skip, h]
  match fuel with
  | 0 | 1 | _ + 2 => rfl

theorem readValue_list (h : readItems fuel [] cs = some (v, rest)) :
    readValue (fuel + 1) ('[' :: cs) = some (v, rest) := by
  have hskip : skip ('[' :: cs) = '[' :: cs := rfl
  rw [readValue, hskip]
  simp only
  split
  · rw [readItems_eq_none fuel [] ‹_›] at h
    cases h
  · rw [readItems_skip, h]

end Parts

theorem writeItems_eq_map (items : List Value) : writeItems items = items.map write := by
  induction items with
  | nil => rfl
  | cons v items ih => rw [writeItems, ih, List.map_cons]

/-- The items of a list are read back one after the other. -/
theorem readItems_written {items : List Value} (ne : items ≠ []) (each : ∀ v ∈ items, ReadBack v)
    {fuel : Nat} (enough : (", ".intercalate (items.map write)).length + 2 ≤ fuel)
    (acc : List Value) (rest : List Char) :
    readItems fuel acc ((", ".intercalate (items.map write)).toList ++ ']' :: rest) =
      some (.list (acc.reverse ++ items), rest) := by
  induction items generalizing fuel acc with
  | nil => exact absurd rfl ne
  | cons v items ih =>
    -- One unit of fuel goes to the list and one to the item; the separator pays for the next one.
    obtain ⟨hv, hitems⟩ := List.forall_mem_cons.1 each
    obtain ⟨fuel, rfl⟩ : ∃ n, fuel = n + 2 := ⟨fuel - 2, by omega⟩
    cases items with
    | nil =>
      simp only [List.map_cons, List.map_nil, String.intercalate_singleton] at enough ⊢
      rw [readItems_last acc (hv fuel _ (by omega) (ends_bracket rest)), List.reverse_cons]
    | cons w items =>
      have hsep : ", ".toList = [',', ' '] := rfl
      have hlength : ", ".length = 2 := rfl
      rw [List.map_cons, List.map_cons, String.intercalate_cons_cons, ← List.map_cons] at enough ⊢
      simp only [String.length_append, String.toList_append, hsep, hlength, List.append_assoc,
        List.cons_append, List.nil_append] at enough ⊢
      rw [readItems_next acc (hv fuel _ (by omega) (ends_comma _)),
        ih (by simp) hitems (by omega), List.reverse_cons, List.append_assoc]
      rfl

/-! ## Mappings -/

section Parts

variable {fuel : Nat} {v : Value} {cs rest : List Char}

theorem readEntries_skip (fuel : Nat) (acc : List (Value × Value)) (cs : List Char) :
    readEntries fuel acc (skip cs) = readEntries fuel acc cs := by
  cases fuel with
  | zero => rfl
  | succ fuel => rw [readEntries, readEntries, skip_skip]

theorem readEntries_space (fuel : Nat) (acc : List (Value × Value)) (cs : List Char) :
    readEntries fuel acc (' ' :: cs) = readEntries fuel acc cs := by
  rw [← readEntries_skip, skip_space, readEntries_skip]

theorem readEntries_last (acc : List (Value × Value)) (k : String)
    (h : readValue fuel cs = some (v, '\x7d' :: rest)) :
    readEntries (fuel + 1) acc ((writeText k).toList ++ (": ".toList ++ cs)) =
      some (.mapping (Value.insertEntry acc (.text k) v), rest) := by
  have hquote (cs : List Char) : skip ('"' :: cs) = '"' :: cs := rfl
  have hcolon : skip (": ".toList ++ cs) = ':' :: ' ' :: cs := rfl
  rw [toList_writeText, List.append_assoc, List.cons_append, readEntries]
  simp only [hquote, List.singleton_append, readText_written, hcolon, readValue_space, h]
  rfl

theorem readEntries_next (acc : List (Value × Value)) (k : String)
    (h : readValue fuel cs = some (v, ',' :: ' ' :: rest)) :
    readEntries (fuel + 1) acc ((writeText k).toList ++ (": ".toList ++ cs)) =
      readEntries fuel (Value.insertEntry acc (.text k) v) rest := by
  have hquote (cs : List Char) : skip ('"' :: cs) = '"' :: cs := rfl
  have hcolon : skip (": ".toList ++ cs) = ':' :: ' ' :: cs := rfl
  rw [toList_writeText, List.append_assoc, List.cons_append, readEntries]
  simp only [hquote, List.singleton_append, readText_written, hcolon, readValue_space, h]
  exact readEntries_space fuel _ rest

/-- No list of entries begins with a closing brace. -/
theorem readEntries_eq_none (fuel : Nat) (acc : List (Value × Value))
    (h : skip cs = '\x7d' :: rest) : readEntries fuel acc cs = none := by
  rw [← readEntries_skip, h]
  cases fuel <;> rfl

theorem readValue_mapping (h : readEntries fuel [] cs = some (v, rest)) :
    readValue (fuel + 1) ('\x7b' :: cs) = some (v, rest) := by
  have hskip : skip ('\x7b' :: cs) = '\x7b' :: cs := rfl
  rw [readValue, hskip]
  simp only
  split
  · rw [readEntries_eq_none fuel [] ‹_›] at h
    cases h
  · rw [readEntries_skip, h]

end Parts

/-- The text of a named value in a mapping. -/
def writeField (f : String × Value) : String := writeText f.1 ++ ": " ++ write f.2

/-- The entry of a named value. -/
def entry (f : String × Value) : Value × Value := (.text f.1, f.2)

/-- A named value is put behind those with other names. -/
theorem insertEntry_map_entry {done : List (String × Value)} {f : String × Value}
    (new : f.1 ∉ done.map (·.1)) :
    Value.insertEntry (done.map entry) (.text f.1) f.2 = (done ++ [f]).map entry := by
  rw [List.map_append]
  refine Value.insertEntry_eq_append (List.forall_mem_map.2 fun g mem => ?_) f.2
  exact beq_false_of_ne fun same : g.1 = f.1 => new (same ▸ List.mem_map_of_mem mem)

/-- The entries of a mapping are read back one after the other. -/
theorem readEntries_written {fields : List (String × Value)} (ne : fields ≠ [])
    (each : ∀ f ∈ fields, ReadBack f.2) (done : List (String × Value))
    (distinct : ((done ++ fields).map (·.1)).Nodup) {fuel : Nat}
    (enough : (", ".intercalate (fields.map writeField)).length + 2 ≤ fuel) (rest : List Char) :
    readEntries fuel (done.map entry)
      ((", ".intercalate (fields.map writeField)).toList ++ '\x7d' :: rest) =
      some (.mapping ((done ++ fields).map entry), rest) := by
  induction fields generalizing fuel done with
  | nil => exact absurd rfl ne
  | cons f fields ih =>
    obtain ⟨hf, hfields⟩ := List.forall_mem_cons.1 each
    obtain ⟨fuel, rfl⟩ : ∃ n, fuel = n + 2 := ⟨fuel - 2, by omega⟩
    have new : f.1 ∉ done.map (·.1) := by
      rw [List.map_append, List.map_cons] at distinct
      exact (List.nodup_middle.1 distinct).notMem ∘ List.mem_append_left _
    cases fields with
    | nil =>
      simp only [List.map_cons, List.map_nil, String.intercalate_singleton, writeField,
        String.length_append, String.toList_append, List.append_assoc] at enough ⊢
      rw [readEntries_last _ _ (hf fuel _ (by omega) (ends_brace rest)),
        insertEntry_map_entry new]
    | cons g fields =>
      have hsep : ", ".toList = [',', ' '] := rfl
      have hlength : ", ".length = 2 := rfl
      rw [List.map_cons, List.map_cons, String.intercalate_cons_cons, ← List.map_cons,
        writeField] at enough ⊢
      simp only [String.length_append, String.toList_append, hlength, hsep, List.append_assoc,
        List.cons_append, List.nil_append] at enough ⊢
      rw [readEntries_next _ _ (hf fuel _ (by omega) (ends_comma _)),
        insertEntry_map_entry new, ih (by simp) hfields _ (by simpa using distinct) (by omega),
        List.append_assoc]
      rfl

/-! ## Values -/

/-- Entries that are in order stay where they are. -/
theorem sortByKey_eq_self {entries : List (String × String)}
    (sorted : entries.Pairwise (·.1 < ·.1)) : sortByKey entries = entries := by
  induction sorted with
  | nil => rfl
  | @cons e rest first sorted ih =>
    rw [sortByKey, List.foldr_cons, ← sortByKey, ih]
    cases rest with
    | nil => rfl
    | cons d rest =>
      have lt : e.1 < d.1 := first d List.mem_cons_self
      exact if_pos ((String.le_total e.1 d.1).resolve_right (String.not_le.2 lt))

theorem writeEntries_map_entry (fields : List (String × Value)) :
    writeEntries (fields.map entry) = fields.map fun f => (f.1, write f.2) := by
  induction fields with
  | nil => rfl
  | cons f fields ih => rw [List.map_cons, entry, writeEntries, ih]; rfl

/-- Values that a JSON text can tell: no numbers with a fraction, and only mappings whose keys are
texts in order. -/
inductive Tellable : Value → Prop
  | null : Tellable .null
  | bool (b : Bool) : Tellable (.bool b)
  | int (n : Int) : Tellable (.int n)
  | text (s : String) : Tellable (.text s)
  | list {items : List Value} (each : ∀ v ∈ items, Tellable v) : Tellable (.list items)
  | record {fields : List (String × Value)} (sorted : fields.Pairwise (·.1 < ·.1))
    (each : ∀ f ∈ fields, Tellable f.2) : Tellable (.record fields)

/-- The text of a record whose names are in order. -/
theorem write_record {fields : List (String × Value)} (sorted : fields.Pairwise (·.1 < ·.1)) :
    write (.record fields) = "\x7b" ++ ", ".intercalate (fields.map writeField) ++ "\x7d" := by
  have hrecord : Value.record fields = .mapping (fields.map entry) := rfl
  have hsorted : (fields.map fun f => (f.1, write f.2)).Pairwise (·.1 < ·.1) :=
    List.pairwise_map.2 sorted
  rw [hrecord, write, writeEntries_map_entry, sortByKey_eq_self hsorted, List.map_map]
  rfl

theorem readBack_list {items : List Value} (each : ∀ v ∈ items, ReadBack v) :
    ReadBack (.list items) := by
  intro fuel rest enough _
  have text : (write (.list items)).toList ++ rest =
      '[' :: ((", ".intercalate (items.map write)).toList ++ ']' :: rest) := by
    rw [write, writeItems_eq_map, String.toList_append, String.toList_append, List.append_assoc,
      List.append_assoc]
    rfl
  have size := congrArg List.length text
  simp only [List.length_append, List.length_cons, String.length_toList] at size
  rw [text]
  -- The reader takes a bracket that is closed at once for a list of its own accord.
  by_cases empty : items = []
  · subst empty
    rfl
  · exact readValue_list (readItems_written empty each (by omega) [] rest)

theorem readBack_record {fields : List (String × Value)} (sorted : fields.Pairwise (·.1 < ·.1))
    (each : ∀ f ∈ fields, ReadBack f.2) : ReadBack (.record fields) := by
  intro fuel rest enough _
  have text : (write (.record fields)).toList ++ rest =
      '\x7b' :: ((", ".intercalate (fields.map writeField)).toList ++ '\x7d' :: rest) := by
    rw [write_record sorted, String.toList_append, String.toList_append, List.append_assoc,
      List.append_assoc]
    rfl
  have size := congrArg List.length text
  simp only [List.length_append, List.length_cons, String.length_toList] at size
  have apart {f g : String × Value} (lt : f.1 < g.1) : f.1 ≠ g.1 := fun same =>
    String.lt_irrefl g.1 (same ▸ lt)
  have distinct : (fields.map (·.1)).Nodup := List.pairwise_map.2 (sorted.imp apart)
  rw [text]
  by_cases empty : fields = []
  · subst empty
    rfl
  · exact readValue_mapping (readEntries_written empty each [] distinct (by omega) rest)

theorem Tellable.readBack {v : Value} (h : Tellable v) : ReadBack v := by
  induction h with
  | null => exact fun fuel rest _ _ => readValue_null fuel rest
  | bool b =>
    cases b with
    | true => exact fun fuel rest _ _ => readValue_true fuel rest
    | false => exact fun fuel rest _ _ => readValue_false fuel rest
  | int n => exact fun fuel rest _ ends => readValue_int fuel n ends
  | text s => exact fun fuel rest _ _ => readValue_text fuel s rest
  | list each ih => exact readBack_list ih
  | record sorted each ih => exact readBack_record sorted ih

/-- The text of a tellable value is read back as this value. -/
theorem read_write {v : Value} (h : Tellable v) : read (write v) = some v := by
  have back := h.readBack (write v).length [] (Nat.le_refl _) (.inl rfl)
  rw [List.append_nil, ← String.length_toList] at back
  rw [read]
  simp only [back]
  rfl

/-! ## Characters of a text -/

/-- A text of visible ASCII and spaces. -/
def Visible (s : String) : Prop := ∀ c ∈ s.toList, 0x20 ≤ c.toNat ∧ c.toNat < 0x7F

instance (s : String) : Decidable (Visible s) :=
  List.decidableBAll (fun c : Char => 0x20 ≤ c.toNat ∧ c.toNat < 0x7F) s.toList

theorem Visible.append {s t : String} (hs : Visible s) (ht : Visible t) : Visible (s ++ t) := by
  intro c mem
  rw [String.toList_append, List.mem_append] at mem
  exact mem.elim (hs c) (ht c)

theorem visible_intercalate {sep : String} (hsep : Visible sep) {texts : List String}
    (each : ∀ s ∈ texts, Visible s) : Visible (sep.intercalate texts) := by
  induction texts with
  | nil => exact nofun
  | cons s texts ih =>
    obtain ⟨hs, htexts⟩ := List.forall_mem_cons.1 each
    cases texts with
    | nil =>
      rw [String.intercalate_singleton]
      exact hs
    | cons t texts =>
      rw [String.intercalate_cons_cons]
      exact (hs.append hsep).append (ih htexts)

theorem visible_writeText (s : String) : Visible (writeText s) := by
  intro c mem
  rw [toList_writeText, List.cons_append, List.mem_cons, List.mem_append, List.mem_singleton] at mem
  rcases mem with rfl | mem | rfl
  · decide
  · obtain ⟨d, -, hd⟩ := List.mem_flatMap.1 mem
    exact visible_of_mem_escaped hd
  · decide

theorem visible_toString (n : Int) : Visible (toString n) := by
  have digits (m : Nat) : ∀ c ∈ Nat.toDigits 10 m, 0x20 ≤ c.toNat ∧ c.toNat < 0x7F := by
    intro c mem
    have digit := Nat.isDigit_of_mem_toDigits (by decide) (by decide) mem
    exact (Char.isDigit_iff_toNat.1 digit).imp (Nat.le_trans (by decide))
      fun le => Nat.lt_of_le_of_lt le (by decide)
  intro c mem
  cases n with
  | ofNat m =>
    rw [toList_toString_ofNat] at mem
    exact digits m c mem
  | negSucc m =>
    rw [toList_toString_negSucc] at mem
    rcases List.mem_cons.1 mem with rfl | mem
    · decide
    · exact digits _ c mem

/-- The text of a tellable value is one line of ASCII. -/
theorem Tellable.visible {v : Value} (h : Tellable v) : Visible (write v) := by
  have comma : Visible ", " := by decide
  have colon : Visible ": " := by decide
  have brackets : Visible "[" ∧ Visible "]" := by decide
  have braces : Visible "\x7b" ∧ Visible "\x7d" := by decide
  induction h with
  | null => decide
  | bool b => cases b <;> decide
  | int n => exact visible_toString n
  | text s => exact visible_writeText s
  | @list items each ih =>
    rw [write, writeItems_eq_map]
    have inside := visible_intercalate comma (List.forall_mem_map.2 ih)
    exact (brackets.1.append inside).append brackets.2
  | @record fields sorted each ih =>
    rw [write_record sorted]
    have field : ∀ f ∈ fields, Visible (writeField f) := fun f mem =>
      ((visible_writeText f.1).append colon).append (ih f mem)
    have inside := visible_intercalate comma (List.forall_mem_map.2 field)
    exact (braces.1.append inside).append braces.2

end Pinhole.Json
