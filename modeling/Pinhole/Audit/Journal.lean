import Pinhole.Audit.Trail
import Pinhole.Config.Settings
import Pinhole.Files.Content
import Pinhole.Files.Filing

/-!
# The audit journal

Events are kept in a file, one line each. When the file has outgrown its limit it becomes the first
of a row of numbered backups: each backup moves on by one, and the last of a full row is
overwritten. So a record disappears only with the whole of the oldest backup.

What the system refuses is told as a warning and never stands in the way of what is audited.

Left out are the lock that a writer holds on the file and the flush to the device after each line:
only one call writes to a tree, and nothing stops it within a line. The modes that new files get are
left out with all others.
-/

namespace Pinhole.Audit

/-- Where events are kept, and how many of them. -/
structure Journal where
  path : Path := Config.Audit.logPath {}
  enabled : Bool := true
  /-- The number of bytes that the file may hold. -/
  maxBytes : Int := 10 * 1024 * 1024
  /-- The number of backups. -/
  backups : Nat := 5
  backups_pos : 0 < backups := by decide

namespace Journal

/-- The journal at a path, with the limits that every call keeps. -/
def kept (path : Path) (enabled : Bool) : Journal := { path, enabled }

/-- The number of backups for the number that is asked for: one at least. -/
def backupCount (n : Int) : Nat := (max 1 n).toNat

theorem backupCount_pos (n : Int) : 0 < backupCount n := by
  unfold backupCount; omega

/-- The backup with a number; the first is the newest. -/
def backup (j : Journal) (n : Nat) : Path := j.path.withName (j.path.name ++ "." ++ toString n)

/-- Adds a line to the file, which is made with the directories that lead to it. -/
def appendLine (j : Journal) (line : String) : Files.Filing Unit := do
  Files.Filing.attempt (·.makeDirectories j.path.parent)
  Files.Filing.change (·.append j.path (Files.encode (line ++ "\n")))

/-- Moves the first `n` backups on by one, the oldest first. -/
def shift (j : Journal) : Nat → Files.Filing Unit
  | 0 => pure ()
  | n + 1 => do
    if ← Files.Filing.look (·.contains (j.backup (n + 1))) then
      Files.Filing.change (·.rename (j.backup (n + 1)) (j.backup (n + 2)))
    j.shift n

/-- Turns the file into the first backup and starts a new one. -/
def rotate (j : Journal) : Files.Filing Unit := do
  j.shift (j.backups - 1)
  Files.Filing.change (·.rename j.path (j.backup 1))
  Files.Filing.change (·.append j.path .empty)

/-- Stores an event. -/
def store (j : Journal) (e : Event) : Files.Filing Unit := do
  j.appendLine e.line
  let size ← Files.Filing.look (·.size j.path)
  if j.maxBytes < size then
    j.rotate

/-- What a fault of the files is told as. -/
def warning (j : Journal) (f : Files.Fault) : String :=
  "Could not write audit log " ++ j.path.text ++ ": " ++ f.text

/-- Stores an event if the journal is kept: the warning if there is one, and the files after it. A
fault that the system knows nothing of is not told as a warning. -/
def log (j : Journal) (e : Event) (t : Files.Tree) :
    Except Files.Fault (Option String) × Files.Tree :=
  if j.enabled then
    match (j.store e).on t with
    | (.ok (), t) => (.ok none, t)
    | (.error f, t) => (if f.isOfSystem then .ok (some (j.warning f)) else .error f, t)
  else (.ok none, t)

/-- A journal that is not kept leaves the files alone. -/
theorem log_of_not_enabled {j : Journal} (h : j.enabled = false) (e : Event) (t : Files.Tree) :
    j.log e t = (.ok none, t) := by
  simp [log, h]

end Journal

end Pinhole.Audit
