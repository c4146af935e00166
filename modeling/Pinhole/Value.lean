import Pinhole.Number.Shortest
import Pinhole.Text.Spelling

/-!
# Values

What a document or a request may hold at a place where nothing is known about it yet: a settings
file is read into a `Value` before its sections are checked, and a port is a `Value` until it has
been shown to be an integer in range.

A mapping keeps its entries in the order in which their keys first came; `insertEntry` gives a
repeated key its last value at its first place. Two keys are the same when they are equal as
numbers (`1`, `1.0` and `true` are one key) or as texts.
-/

namespace Pinhole

/-- Values of kinds that no setting asks for. Bytes and torn texts can stand in for texts; of the
others no more is known than whether they are empty. -/
inductive ForeignKind
  | date
  | moment
  | bytes (content : List UInt8)
  | set (empty : Bool)
  /-- A text that holds surrogates. -/
  | torn (s : Text.Spelling)
  deriving DecidableEq, Repr

/-- A value of which nothing is known yet. -/
inductive Value
  | null
  | bool (b : Bool)
  | int (n : Int)
  | float (x : Binary64)
  | text (s : String)
  | list (items : List Value)
  | mapping (entries : List (Value × Value))
  | foreign (kind : ForeignKind)

instance : Inhabited Value := ⟨.null⟩

namespace Value

/-- The name of a value's kind. -/
def kindName : Value → String
  | .null => "NoneType"
  | .bool _ => "bool"
  | .int _ => "int"
  | .float _ => "float"
  | .text _ => "str"
  | .list _ => "list"
  | .mapping _ => "dict"
  | .foreign .date => "datetime.date"
  | .foreign .moment => "datetime.datetime"
  | .foreign (.bytes _) => "bytes"
  | .foreign (.set _) => "set"
  | .foreign (.torn _) => "str"

mutual

/-- A value as it is shown inside a message. -/
def display : Value → String
  | .null => "None"
  | .bool true => "True"
  | .bool false => "False"
  | .int n => toString n
  | .float x => x.text
  | .text s => Text.quoted s
  | .list items => "[" ++ ", ".intercalate (displayItems items) ++ "]"
  | .mapping entries => "\x7b" ++ ", ".intercalate (displayEntries entries) ++ "\x7d"
  | .foreign (.torn s) => s.quoted
  | .foreign kind => "<" ++ kindName (.foreign kind) ++ ">"

/-- The items of a list, each as it is shown. -/
def displayItems : List Value → List String
  | [] => []
  | v :: vs => display v :: displayItems vs

/-- The entries of a mapping, each as it is shown. -/
def displayEntries : List (Value × Value) → List String
  | [] => []
  | (k, v) :: es => (display k ++ ": " ++ display v) :: displayEntries es

end

/-- Whether a value counts as absent: nothing, zero, or empty. -/
def isBlank : Value → Bool
  | .null => true
  | .bool b => !b
  | .int n => n == 0
  | .float x => x.isZero
  | .text s => s.isEmpty
  | .list items => items.isEmpty
  | .mapping entries => entries.isEmpty
  | .foreign (.bytes content) => content.isEmpty
  | .foreign (.set empty) => empty
  | .foreign _ => false

/-- Whether a value is a text, torn or not. -/
def isText : Value → Bool
  | .text _ | .foreign (.torn _) => true
  | _ => false

/-- Whether a value may be the key of a mapping. -/
def isKey : Value → Bool
  | .list _ | .mapping _ | .foreign (.set _) => false
  | _ => true

/-- The number that a key is, when it is one. -/
def number? : Value → Option (Int ⊕ Binary64)
  | .bool b => some (.inl (if b then 1 else 0))
  | .int n => some (.inl n)
  | .float x =>
    match x.whole? with
    | some n => some (.inl n)
    | none => some (.inr x)
  | _ => none

/-- Whether two values are the same key. -/
def sameKey (a b : Value) : Bool :=
  match a, b with
  | .null, .null => true
  | .text s, .text t => s == t
  | _, _ =>
    match a.number?, b.number? with
    | some (.inl m), some (.inl n) => m == n
    | some (.inr x), some (.inr y) => x.numericEq y
    | _, _ => false

/-- The entries with one more: a key that is already there gets the new value at its place. -/
def insertEntry (entries : List (Value × Value)) (key value : Value) : List (Value × Value) :=
  match entries with
  | [] => [(key, value)]
  | (k, v) :: rest =>
    if sameKey k key then (k, value) :: rest else (k, v) :: insertEntry rest key value

/-- The entry of a mapping under a text key. -/
def lookup? (entries : List (Value × Value)) (key : String) : Option Value :=
  (entries.find? fun (k, _) => sameKey k (.text key)).map (·.2)

/-- The entry of a value under a text key, when the value is a mapping that has one. -/
def get? : Value → String → Option Value
  | .mapping entries, key => lookup? entries key
  | _, _ => none

/-- A mapping of named values. -/
def record (fields : List (String × Value)) : Value :=
  .mapping (fields.map fun (k, v) => (.text k, v))

theorem sameKey_text (s t : String) : sameKey (.text s) (.text t) = (s == t) := rfl

/-- A new key comes last. -/
theorem insertEntry_eq_append {entries : List (Value × Value)} {key : Value}
    (new : ∀ e ∈ entries, sameKey e.1 key = false) (v : Value) :
    insertEntry entries key v = entries ++ [(key, v)] := by
  induction entries with
  | nil => rfl
  | cons e rest ih =>
    obtain ⟨hnew, hrest⟩ := List.forall_mem_cons.1 new
    rw [insertEntry, hnew, ih hrest]
    rfl

/-- An inserted text key is found again. -/
theorem lookup?_insertEntry_self (entries : List (Value × Value)) (key : String) (v : Value) :
    lookup? (insertEntry entries (.text key) v) key = some v := by
  induction entries with
  | nil => simp [insertEntry, lookup?, sameKey_text]
  | cons e rest ih =>
    obtain ⟨k, w⟩ := e
    by_cases h : sameKey k (.text key) = true
    · simp [insertEntry, lookup?, h]
    · simpa [insertEntry, lookup?, h] using ih

end Value

end Pinhole
