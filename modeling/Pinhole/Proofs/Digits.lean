/-!
# Numbers as they are shown

A natural number is shown by its decimal digits, and a negative integer by a sign and digits. What
is shown tells which number it is.
-/

namespace Pinhole

/-- The numeral of a natural number holds digits only. -/
theorem not_mem_toDigits {c : Char} (other : c.isDigit = false) (n : Nat) :
    c ∉ Nat.toDigits 10 n := by
  intro mem
  rw [Nat.isDigit_of_mem_toDigits (by decide) (by decide) mem] at other
  cases other

/-- The numeral of a natural number tells which number it is. -/
theorem eq_of_toDigits {n m : Nat} (e : Nat.toDigits 10 n = Nat.toDigits 10 m) : n = m := by
  simpa using congrArg (Nat.ofDigitChars 10 · 0) e

/-- Only the numeral of zero begins with a zero. -/
theorem eq_nil_of_toDigits {n : Nat} {ds : List Char} (front : Nat.toDigits 10 n = '0' :: ds) :
    ds = [] := by
  induction n using Nat.strongRecOn generalizing ds with
  | ind n ih =>
    rw [Nat.toDigits_eq_if (by decide)] at front
    split at front
    · exact (List.cons.inj front).2.symm
    · rename_i large
      have ne : Nat.toDigits 10 (n / 10) ≠ [] := Nat.toDigits_ne_nil
      obtain ⟨c, cs, before⟩ := List.exists_cons_of_ne_nil ne
      rw [before, List.cons_append] at front
      obtain ⟨rfl, -⟩ := List.cons.inj front
      rw [ih (n / 10) (by omega) before, ← Nat.toDigits_zero 10] at before
      have small : n / 10 = 0 := eq_of_toDigits before
      omega

theorem toList_toString_ofNat (n : Nat) :
    (toString (Int.ofNat n)).toList = Nat.toDigits 10 n := Nat.toList_repr

theorem toList_toString_negSucc (n : Nat) :
    (toString (Int.negSucc n)).toList = '-' :: Nat.toDigits 10 (n + 1) := by
  have hrepr : (Int.negSucc n).repr = "-" ++ (n + 1).repr := rfl
  rw [Int.toString_eq_repr, hrepr, String.toList_append, Nat.toList_repr]
  rfl

/-- The numeral of an integer holds no blank. -/
theorem not_mem_toList_toString (n : Int) : ' ' ∉ (toString n).toList := by
  cases n with
  | ofNat n =>
    rw [toList_toString_ofNat]
    exact not_mem_toDigits rfl n
  | negSucc n =>
    rw [toList_toString_negSucc, List.mem_cons, not_or]
    exact ⟨by decide, not_mem_toDigits rfl (n + 1)⟩

/-- The integer that digits spell, with a sign in front of them or without one. -/
def spelled : List Char → Int
  | '-' :: ds => -(Nat.ofDigitChars 10 ds 0 : Nat)
  | ds => (Nat.ofDigitChars 10 ds 0 : Nat)

/-- The numeral of an integer spells it. -/
theorem spelled_toString (n : Int) : spelled (toString n).toList = n := by
  cases n with
  | ofNat n =>
    rw [toList_toString_ofNat, spelled, Nat.ofDigitChars_ten_toDigits]
    · rfl
    · intro ds signed
      exact not_mem_toDigits (c := '-') rfl n (signed ▸ List.mem_cons_self)
  | negSucc n =>
    rw [toList_toString_negSucc, spelled, Nat.ofDigitChars_ten_toDigits]
    rfl

/-- The numeral of an integer tells which integer it is. -/
theorem eq_of_toList_toString {n m : Int} (e : (toString n).toList = (toString m).toList) :
    n = m := by
  rw [← spelled_toString n, e, spelled_toString]

end Pinhole
