/-!
# Words of a command line

How the words after a command are read. A word with a hyphen in front gives switches; a word of two
hyphens ends them, and every other word is an operand. A long switch stands alone or has its value
after an equals sign; short switches may stand together, and the rest of such a word is the value of
the first one that takes a value. A value that is not in the word of its switch is the next word,
whatever that looks like.

Where operands and switches must not be mixed, the first operand ends the switches too.
-/

namespace Pinhole.CommandLine

/-- The switches of all commands. -/
inductive Switch
  | help
  | version
  | tcp
  | udp
  | interface
  | dryRun
  | verbose
  | quiet
  | noColor
  | config
  | force
  deriving DecidableEq, Repr

namespace Switch

/-- The long name of a switch. -/
def long : Switch → String
  | .help => "--help"
  | .version => "--version"
  | .tcp => "--tcp"
  | .udp => "--udp"
  | .interface => "--interface"
  | .dryRun => "--dry-run"
  | .verbose => "--verbose"
  | .quiet => "--quiet"
  | .noColor => "--no-color"
  | .config => "--config"
  | .force => "--force"

/-- The letter of a switch that has one. -/
def short? : Switch → Option Char
  | .version => some 'V'
  | .interface => some 'i'
  | .verbose => some 'v'
  | .quiet => some 'q'
  | .config => some 'c'
  | .force => some 'f'
  | _ => none

/-- Whether a switch takes a value. -/
def takesValue : Switch → Bool
  | .tcp | .udp | .interface | .config => true
  | _ => false

end Switch

/-- What one word says: the switches that it gives with their values, and a switch whose value is
the next word. -/
structure Reading where
  given : List (Switch × String) := []
  waiting : Option Switch := none
  deriving DecidableEq, Repr

/-- Reads short switches that stand together. -/
def readLetters (known : List Switch) : List Char → Option Reading
  | [] => some {}
  | c :: cs =>
    match known.find? (·.short? == some c) with
    | none => none
    | some s =>
      if s.takesValue then
        some (if cs.isEmpty then { waiting := some s } else { given := [(s, String.ofList cs)] })
      else (readLetters known cs).map fun r => { r with given := (s, "") :: r.given }

/-- Reads a long switch, with the value after its equals sign if it has one. -/
def readLong (s : Switch) : Option String → Option Reading
  | some value => if s.takesValue then some { given := [(s, value)] } else none
  | none => some (if s.takesValue then { waiting := some s } else { given := [(s, "")] })

/-- Whether a word gives switches. -/
def isSwitchWord (word : String) : Bool :=
  match word.toList with
  | '-' :: _ :: _ => true
  | _ => false

/-- Reads a word that gives switches. -/
def readWord (known : List Switch) (word : String) : Option Reading :=
  let cs := word.toList
  let name := cs.takeWhile (· != '=')
  let value :=
    if name.length < cs.length then some (String.ofList (cs.drop (name.length + 1))) else none
  match known.find? (·.long.toList == name) with
  | some s => readLong s value
  | none => if cs.take 2 = ['-', '-'] then none else readLetters known (cs.drop 1)

/-- The switches and the operands of a command, both in their order. -/
structure Given where
  switches : List (Switch × String) := []
  operands : List String := []
  deriving DecidableEq, Repr

namespace Given

/-- Whether a switch is given. -/
def has (g : Given) (s : Switch) : Bool := g.switches.any (·.1 == s)

/-- How often a switch is given. -/
def count (g : Given) (s : Switch) : Nat := g.switches.countP (·.1 == s)

/-- The values of a switch in their order. -/
def values (g : Given) (s : Switch) : List String :=
  (g.switches.filter (·.1 == s)).map (·.2)

/-- The last value of a switch, which is the one that counts. -/
def last? (g : Given) (s : Switch) : Option String := (g.values s).getLast?

end Given

/-- The end that the reading of words comes to. -/
def endOfSwitches : String := "--"

/-- Reads the words of a command that knows some switches; nothing if they are misused. -/
def scan (known : List Switch) (mixed : Bool) : List String → Option Given
  | [] => some {}
  | word :: words =>
    if word = endOfSwitches then some { operands := words }
    else if isSwitchWord word then
      match readWord known word with
      | none => none
      | some r =>
        match r.waiting with
        | none =>
          (scan known mixed words).map fun g => { g with switches := r.given ++ g.switches }
        | some s =>
          match words with
          | [] => none
          | value :: words =>
            (scan known mixed words).map fun g =>
              { g with switches := r.given ++ (s, value) :: g.switches }
    else if mixed then
      (scan known mixed words).map fun g => { g with operands := word :: g.operands }
    else some { operands := word :: words }

/-- Words that give no switch are operands. -/
theorem scan_operands (known : List Switch) {words : List String}
    (h : ∀ w ∈ words, w ≠ endOfSwitches ∧ isSwitchWord w = false) :
    scan known true words = some { operands := words } := by
  induction words with
  | nil => rfl
  | cons w ws ih =>
    obtain ⟨hw, hs⟩ := h w List.mem_cons_self
    simp [scan, hw, hs, ih fun x hx => h x (List.mem_cons_of_mem _ hx)]

end Pinhole.CommandLine
