/-!
# Hexadecimal spellings

Escapes in quoted texts spell a code point with a fixed number of hexadecimal digits. The case of
the letters is the format's decision, so it is an argument here.
-/

namespace Pinhole.Text

/-- The case of the letters among the hexadecimal digits. -/
inductive HexCase
  | lower
  | upper
  deriving DecidableEq

/-- One hexadecimal digit; a number above fifteen has none and is written `?`. -/
def hexDigit (letters : HexCase) (d : Nat) : Char :=
  if d < 10 then Char.ofNat ('0'.toNat + d)
  else if d < 16 then
    match letters with
    | .lower => Char.ofNat ('a'.toNat + (d - 10))
    | .upper => Char.ofNat ('A'.toNat + (d - 10))
  else '?'

/-- The lowest `width` hexadecimal digits of a number, the highest first. -/
def hexDigits (letters : HexCase) : (width n : Nat) → List Char
  | 0, _ => []
  | width + 1, n => hexDigits letters width (n / 16) ++ [hexDigit letters (n % 16)]

/-- The value of a hexadecimal digit in either case. -/
def hexValue? (c : Char) : Option Nat :=
  if '0' ≤ c ∧ c ≤ '9' then some (c.toNat - '0'.toNat)
  else if 'a' ≤ c ∧ c ≤ 'f' then some (c.toNat - 'a'.toNat + 10)
  else if 'A' ≤ c ∧ c ≤ 'F' then some (c.toNat - 'A'.toNat + 10)
  else none

/-- The number that a list of hexadecimal digits spells, after digits already read. -/
def hexNumber? (acc : Nat) : List Char → Option Nat
  | [] => some acc
  | c :: cs => (hexValue? c).bind fun d => hexNumber? (16 * acc + d) cs

@[simp] theorem length_hexDigits (letters : HexCase) (width n : Nat) :
    (hexDigits letters width n).length = width := by
  induction width generalizing n with
  | zero => rfl
  | succ width ih => simp [hexDigits, ih]

/-- Each digit reads back as its value. -/
theorem hexValue?_hexDigit (letters : HexCase) {d : Nat} (h : d < 16) :
    hexValue? (hexDigit letters d) = some d := by
  have key : ∀ d : Fin 16, hexValue? (hexDigit letters d) = some d.1 := by
    cases letters <;> decide
  exact key ⟨d, h⟩

/-- Each digit is visible ASCII. -/
theorem visible_of_mem_hexDigits {letters : HexCase} {width n : Nat} {c : Char}
    (h : c ∈ hexDigits letters width n) : 0x20 < c.toNat ∧ c.toNat < 0x7F := by
  have key : ∀ d : Fin 16,
      0x20 < (hexDigit letters d).toNat ∧ (hexDigit letters d).toNat < 0x7F := by
    cases letters <;> decide
  induction width generalizing n with
  | zero => cases h
  | succ width ih =>
    rcases List.mem_append.1 h with h | h
    · exact ih h
    · rw [List.mem_singleton.1 h]
      exact key ⟨n % 16, Nat.mod_lt _ (by decide)⟩

/-- Digits are read one after the other. -/
theorem hexNumber?_append (acc : Nat) (cs ds : List Char) :
    hexNumber? acc (cs ++ ds) = (hexNumber? acc cs).bind (hexNumber? · ds) := by
  induction cs generalizing acc with
  | nil => rfl
  | cons c cs ih =>
    simp only [List.cons_append, hexNumber?]
    cases hexValue? c with
    | none => rfl
    | some d => simp [ih]

/-- A number that fits its width reads back from its digits. -/
theorem hexNumber?_hexDigits (letters : HexCase) {width n : Nat} (h : n < Nat.pow 16 width) :
    hexNumber? 0 (hexDigits letters width n) = some n := by
  induction width generalizing n with
  | zero =>
    have : n = 0 := by simpa using h
    subst this; rfl
  | succ width ih =>
    have hn : n / 16 < Nat.pow 16 width := Nat.div_lt_of_lt_mul (by rw [Nat.mul_comm]; exact h)
    have hd := hexValue?_hexDigit letters (Nat.mod_lt n (by decide : 16 > 0))
    simp only [hexDigits, hexNumber?_append, ih hn, Option.bind_some, hexNumber?, hd]
    rw [Nat.div_add_mod]

end Pinhole.Text
