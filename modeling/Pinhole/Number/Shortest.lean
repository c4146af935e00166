import Pinhole.Number.Binary64

/-!
# Shortest decimal spellings

The text of a floating-point number has the fewest decimal digits that read back as the same
number, and among those of equal length the digits nearest to it. For one digit, two digits and so
on, the two neighbours of the number on that decimal grid are tried; the first grid with a hit
gives the digits.

The format's own decisions stand in `spell`: positional notation for numbers from 10⁻⁴ up to 10¹⁶,
always with a fraction; otherwise an exponent with a sign and at least two digits.
-/

namespace Pinhole.Binary64

/-- A decimal number: `digits` times ten to the power `scale`. -/
structure Decimal where
  digits : Nat
  scale : Int
  deriving DecidableEq, Repr

/-- The number of digits before the decimal point of a positive fraction; zero or negative when
zeros follow the point. -/
def pointPosition (num den : Nat) : Int :=
  ((Nat.toDigits 10 (num * Nat.pow 10 400 / den)).length : Int) - 400

/-- A fraction times a power of ten, as a fraction. -/
def scaleRatioTen (num den : Nat) (e : Int) : Nat × Nat :=
  if 0 ≤ e then (num * Nat.pow 10 e.toNat, den) else (num, den * Nat.pow 10 (-e).toNat)

/-- The neighbours of a fraction among the multiples of ten to the power `scale`, the nearer one
first and the even one first on a tie. -/
def neighbours (num den : Nat) (scale : Int) : List Decimal :=
  let (n, d) := scaleRatioTen num den (-scale)
  let down := n / d
  if n % d = 0 then [⟨down, scale⟩]
  else
    let nearest := roundHalfEven n d
    [⟨nearest, scale⟩, ⟨if nearest = down then down + 1 else down, scale⟩]

/-- A decimal whose digits do not end in a zero. -/
def dropZeros : (fuel : Nat) → Decimal → Decimal
  | 0, d => d
  | fuel + 1, d =>
    if d.digits ≠ 0 ∧ d.digits % 10 = 0 then dropZeros fuel ⟨d.digits / 10, d.scale + 1⟩ else d

/-- The shortest decimal that reads back as the positive number with this mantissa and exponent. -/
def shortest (mantissa : Nat) (exponent : Int) : Decimal :=
  let (num, den) := ratio mantissa exponent
  let point := pointPosition num den
  let candidates := (List.range 17).flatMap fun n => neighbours num den (point - (n + 1 : Nat))
  let reads (d : Decimal) : Bool :=
    ofDecimal false d.digits d.scale == .finite false mantissa exponent
  dropZeros 18 ((candidates.find? reads).getD ⟨num / den, 0⟩)

/-- A number of digits with zeros in front up to the width. -/
def zeroPadded (width n : Nat) : String :=
  let digits := Nat.toDigits 10 n
  String.ofList (List.replicate (width - digits.length) '0' ++ digits)

/-- Digits with a point after the first `point` of them. -/
def spell (d : Decimal) : String :=
  let digits := Nat.toDigits 10 d.digits
  let point : Int := digits.length + d.scale
  if -4 < point ∧ point ≤ 16 then
    if point ≤ 0 then
      String.ofList ('0' :: '.' :: List.replicate (-point).toNat '0' ++ digits)
    else if digits.length ≤ point.toNat then
      String.ofList (digits ++ List.replicate (point.toNat - digits.length) '0' ++ ['.', '0'])
    else
      String.ofList (digits.take point.toNat ++ '.' :: digits.drop point.toNat)
  else
    let fraction := if digits.length = 1 then [] else '.' :: digits.drop 1
    let e := point - 1
    let sign := if e < 0 then '-' else '+'
    String.ofList (digits.take 1 ++ fraction ++ ['e', sign]) ++ zeroPadded 2 e.natAbs

/-- The text of a number. -/
def text : Binary64 → String
  | .finite negative m e =>
    (if negative then "-" else "") ++ (if m = 0 then "0.0" else spell (shortest m e))
  | .infinite negative => if negative then "-inf" else "inf"
  | .nan => "nan"

end Pinhole.Binary64
