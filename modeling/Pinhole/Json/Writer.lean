import Pinhole.Text.Hex
import Pinhole.Value

/-!
# JSON text

One value as one line of JSON. The line is visible ASCII and spaces: every other character is
escaped by its UTF-16 units. Entries come in the order of their keys, items are separated by a comma
and a space, and a key from its value by a colon and a space.
-/

namespace Pinhole.Json

/-- The escape of one UTF-16 unit. -/
def escapedUnit (n : Nat) : List Char := '\\' :: 'u' :: Text.hexDigits .lower 4 n

/-- One character inside a JSON string. -/
def escaped (c : Char) : List Char :=
  if c = '"' then ['\\', '"']
  else if c = '\\' then ['\\', '\\']
  else if c = '\n' then ['\\', 'n']
  else if c = '\r' then ['\\', 'r']
  else if c = '\t' then ['\\', 't']
  else if c.toNat = 0x08 then ['\\', 'b']
  else if c.toNat = 0x0C then ['\\', 'f']
  else if 0x20 ≤ c.toNat ∧ c.toNat < 0x7F then [c]
  else if c.toNat < 0x10000 then escapedUnit c.toNat
  else
    let n := c.toNat - 0x10000
    escapedUnit (0xD800 + n / 0x400) ++ escapedUnit (0xDC00 + n % 0x400)

/-- A JSON string. -/
def writeText (s : String) : String :=
  String.ofList ('"' :: s.toList.flatMap escaped ++ ['"'])

/-- A JSON number, or the name of a number that JSON has no digits for. -/
def writeFloat (x : Binary64) : String :=
  match x with
  | .finite .. => x.text
  | .infinite negative => if negative then "-Infinity" else "Infinity"
  | .nan => "NaN"

/-- The text of a key. -/
def keyText : Value → String
  | .text s => s
  | v => v.display

/-- Puts an entry at its place among others, before those with the same key. -/
def insertByKey (e : String × String) : List (String × String) → List (String × String)
  | [] => [e]
  | d :: rest => if e.1 ≤ d.1 then e :: d :: rest else d :: insertByKey e rest

/-- Entries in the order of their keys. -/
def sortByKey (entries : List (String × String)) : List (String × String) :=
  entries.foldr insertByKey []

mutual

/-- The JSON text of a value. -/
def write : Value → String
  | .null => "null"
  | .bool b => if b then "true" else "false"
  | .int n => toString n
  | .float x => writeFloat x
  | .text s => writeText s
  | .list items => "[" ++ ", ".intercalate (writeItems items) ++ "]"
  | .mapping entries =>
    let texts := (sortByKey (writeEntries entries)).map fun (k, v) => writeText k ++ ": " ++ v
    "\x7b" ++ ", ".intercalate texts ++ "\x7d"
  | .foreign _ => "null"

/-- The JSON texts of the items of a list. -/
def writeItems : List Value → List String
  | [] => []
  | v :: vs => write v :: writeItems vs

/-- The keys of a mapping with the JSON texts of their values. -/
def writeEntries : List (Value × Value) → List (String × String)
  | [] => []
  | (k, v) :: es => (keyText k, write v) :: writeEntries es

end

/-- Every character that is written for a character is visible ASCII or a space. -/
theorem visible_of_mem_escaped {c d : Char} (h : d ∈ escaped c) :
    0x20 ≤ d.toNat ∧ d.toNat < 0x7F := by
  have unit {n : Nat} (h : d ∈ escapedUnit n) : 0x20 ≤ d.toNat ∧ d.toNat < 0x7F := by
    unfold escapedUnit at h
    rcases List.mem_cons.1 h with rfl | h
    · decide
    · rcases List.mem_cons.1 h with rfl | h
      · decide
      · exact (Text.visible_of_mem_hexDigits h).imp_left Nat.le_of_lt
  have short {e : Char} (he : 0x20 ≤ e.toNat ∧ e.toNat < 0x7F) (h : d ∈ ['\\', e]) :
      0x20 ≤ d.toNat ∧ d.toNat < 0x7F := by
    rcases List.mem_cons.1 h with rfl | h
    · decide
    · exact List.mem_singleton.1 h ▸ he
  unfold escaped at h
  repeat' split at h
  all_goals first
    | exact short (by decide) h
    | exact unit h
    | exact List.mem_singleton.1 h ▸ ‹_›
    | exact (List.mem_append.1 h).elim unit unit

end Pinhole.Json
