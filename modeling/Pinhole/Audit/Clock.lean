/-!
# Points in time

The text of a point in time in universal time: the date, the time of the day, the fraction of the
second if there is one, and the offset, which is none.
-/

namespace Pinhole.Audit.Clock

/-- The year, month and day of a day, which is counted from the first of January 1970. Years begin
in March here, so that the day that a leap year has more is the last one; 146097 days are four
hundred years. -/
def date (day : Nat) : Nat × Nat × Nat :=
  let n := day + 719468
  let era := n / 146097
  let ofEra := n % 146097
  let yearOfEra := (ofEra - ofEra / 1460 + ofEra / 36524 - ofEra / 146096) / 365
  let ofYear := ofEra - (365 * yearOfEra + yearOfEra / 4 - yearOfEra / 100)
  let fromMarch := (5 * ofYear + 2) / 153
  let month := if fromMarch < 10 then fromMarch + 3 else fromMarch - 9
  let year := era * 400 + yearOfEra + (if month ≤ 2 then 1 else 0)
  (year, month, ofYear - (153 * fromMarch + 2) / 5 + 1)

/-- A number with zeros in front up to a width. -/
def padded (width n : Nat) : String :=
  let digits := toString n
  String.ofList (List.replicate (width - digits.length) '0') ++ digits

/-- The text of a point in time, given in seconds from the start of 1970 and microseconds. -/
def text (seconds micros : Nat) : String :=
  let (year, month, day) := date (seconds / 86400)
  let ofDay := seconds % 86400
  let clock := ":".intercalate
    [padded 2 (ofDay / 3600), padded 2 (ofDay / 60 % 60), padded 2 (ofDay % 60)]
  "-".intercalate [padded 4 year, padded 2 month, padded 2 day] ++ "T" ++ clock ++
    (if micros = 0 then "" else "." ++ padded 6 micros) ++ "+00:00"

example : date 0 = (1970, 1, 1) := by decide

example : date 19782 = (2024, 2, 29) := by decide

example : text 1704164645 6 = "2024-01-02T03:04:05.000006+00:00" := by cbv

end Pinhole.Audit.Clock
