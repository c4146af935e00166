/-!
# The console

Everything the program says goes through one console, as items of a few kinds. Each kind of message
has a label, a stream and a least verbosity. Dry-run lines are shown only when nothing is really
done; plain lines, tables and listings are shown at every verbosity.

An item's `markup` is its text before rendering: tags in square brackets ask for colours.
-/

namespace Pinhole

/-- How much the console shows. -/
inductive Verbosity
  | quiet
  | normal
  | verbose
  | debug
  deriving DecidableEq, Repr

namespace Verbosity

/-- The rank of a verbosity, from nothing but warnings up to every command. -/
def rank : Verbosity → Nat
  | .quiet => 0
  | .normal => 1
  | .verbose => 2
  | .debug => 3

/-- The verbosity that a number asks for; numbers out of range ask for the nearest one. -/
def ofInt (n : Int) : Verbosity :=
  if n ≤ 0 then .quiet else if n = 1 then .normal else if n = 2 then .verbose else .debug

/-- The rank of the verbosity that a number asks for is that number, brought into range. -/
theorem rank_ofInt (n : Int) : ((ofInt n).rank : Int) = max 0 (min n 3) := by
  unfold ofInt
  split
  · simp only [rank]; omega
  · split
    · simp only [rank]; omega
    · split <;> (simp only [rank]; omega)

end Verbosity

/-- The two streams of the console. -/
inductive Stream
  | out
  | err
  deriving DecidableEq, Repr

/-- The kinds of messages. -/
inductive MessageKind
  | info
  | success
  | step
  | debug
  | hint
  | warn
  | error
  deriving DecidableEq, Repr

namespace MessageKind

/-- The least verbosity at which messages of a kind are shown. -/
def least : MessageKind → Verbosity
  | .info | .success | .step => .normal
  | .debug => .debug
  | .hint | .warn | .error => .quiet

/-- The label in front of a message, with the tags that colour it. -/
def label : MessageKind → String
  | .info => "[green][INFO][/green]"
  | .success => "[green][OK][/green]"
  | .step => "[blue]->[/blue]"
  | .debug => "[cyan][DEBUG][/cyan]"
  | .hint => "[cyan]Hint:[/cyan]"
  | .warn => "[yellow][WARN][/yellow]"
  | .error => "[red][ERROR][/red]"

/-- The stream of a kind of messages. -/
def stream : MessageKind → Stream
  | .warn | .error => .err
  | _ => .out

end MessageKind

/-- The value of a setting as a table shows it. -/
inductive Cell
  | flag (b : Bool)
  | absent
  | text (s : String)
  deriving DecidableEq, Repr

/-- The markup of a cell. -/
def Cell.markup : Cell → String
  | .flag true => "[green]yes[/green]"
  | .flag false => "[red]no[/red]"
  | .absent => "-"
  | .text s => s

/-- Something that the console shows. -/
inductive Item
  | message (kind : MessageKind) (text : String)
  /-- What would be done if this were no dry run. -/
  | dryRun (text : String)
  /-- A line without a label. -/
  | line (text : String)
  /-- A text that is shown as it stands, tags and all. -/
  | verbatim (text : String)
  /-- A table of settings by name. -/
  | table (title : String) (rows : List (String × Cell))
  /-- A settings file in a frame. -/
  | listing (title text : String)
  deriving DecidableEq, Repr

namespace Item

/-- The stream of an item. -/
def stream : Item → Stream
  | .message kind _ => kind.stream
  | _ => .out

/-- The least verbosity at which an item is shown. -/
def least : Item → Verbosity
  | .message kind _ => kind.least
  | _ => .quiet

/-- The text of an item before rendering; tables and listings are drawn and have none. -/
def markup : Item → String
  | .message kind text => kind.label ++ " " ++ text
  | .dryRun text => "[blue][DRY-RUN][/blue] Would: " ++ text
  | .line text | .verbatim text => text
  | .table .. | .listing .. => ""

end Item

/-- What decides whether the console shows an item. -/
structure Console where
  verbosity : Verbosity := .normal
  dryRun : Bool := false
  deriving DecidableEq, Repr

/-- Whether the console shows an item. -/
def Console.shows (c : Console) : Item → Bool
  | .dryRun _ => c.dryRun
  | item => item.least.rank ≤ c.verbosity.rank

/-- An item shown at some verbosity is shown at every greater one. -/
theorem Console.shows_mono {c d : Console} {item : Item} (dry : c.dryRun = d.dryRun)
    (le : c.verbosity.rank ≤ d.verbosity.rank) (h : c.shows item = true) : d.shows item = true := by
  cases item with
  | dryRun _ => simpa [shows, ← dry] using h
  | _ =>
    simp only [shows, decide_eq_true_eq] at h ⊢
    exact Nat.le_trans h le

end Pinhole
