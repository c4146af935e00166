/-!
# Character tables

A character class given as a list of closed intervals of code points. A character is in the class
when one interval holds it; the intervals are written in ascending order, but nothing here depends
on that.
-/

namespace Pinhole.Text

/-- A character class as closed intervals of code points. -/
abbrev Table := List (Nat × Nat)

namespace Table

/-- Whether one of the intervals holds the character. -/
def contains (t : Table) (c : Char) : Bool :=
  t.any fun (lo, hi) => lo ≤ c.toNat && c.toNat ≤ hi

/-- An interval of the table that holds a character puts it in the class. -/
theorem contains_of_mem {t : Table} {c : Char} {lo hi : Nat} (h : (lo, hi) ∈ t)
    (hlo : lo ≤ c.toNat) (hhi : c.toNat ≤ hi) : t.contains c = true :=
  List.any_eq_true.2 ⟨(lo, hi), h, by simp [hlo, hhi]⟩

end Table

end Pinhole.Text
