import Mathlib.Control.Monad.Basic
import Pinhole.Config.Load
import Pinhole.Proofs.NodeFaults

/-!
# How loading settings ends

Loading settings gives settings, or fails because the settings are at fault, or ends with an event
that nobody foresaw. `load_comes_to` says for every file tree and every path when the last happens:
the path is too long or leads to a directory, a file holds no text, or a scalar of its document has
no value. Everything else that can be wrong with a file is reported as a failure of its settings.
-/

namespace Pinhole

namespace Yaml

/-- The characters of a text do not break off for want of a text. -/
theorem Source.fault_ofText (s : String) : (ofText s).fault ≠ some .undecodable := by
  unfold ofText checked
  dsimp only
  split
  · exact nofun
  · exact nofun

/-- A file is found to hold no text only if it holds none. -/
theorem decode?_of_read_undecodable {bytes : ByteArray}
    (h : read (.ofBytes bytes) = .error .undecodable) : Files.decode? bytes = none := by
  cases hdecode : Files.decode? bytes with
  | none => rfl
  | some s =>
    have source : Source.ofBytes bytes = .ofText (String.ofList (Files.evenLines s.toList)) := by
      rw [Source.ofBytes, Files.decodeLines?, hdecode]
      rfl
    rw [source] at h
    exact absurd h (textual_read (Source.fault_ofText _))

end Yaml

namespace Config

open Files

/-- A failure that says that the settings are at fault. -/
structure Failure.IsOfSettings (f : Failure) : Prop where
  kind : ∃ faults, f.kind = .configuration faults
  code : f.exitCode = 2

/-- What ends the loading of settings without being reported as a failure. -/
inductive Escapes (t : Tree) (path : Path) : Unforeseen → Prop
  | tooLong (long : t.locate path = .error .tooLong) :
    Escapes t path (.file ⟨.tooLong, path.text, none⟩)
  | directory (found : t.at? path = some .directory) :
    Escapes t path (.file ⟨.isDirectory, path.text, none⟩)
  /-- The file is no text, and nothing is found to be wrong in front of the first bad byte. -/
  | noText {bytes : ByteArray} (found : t.read path = .ok bytes) (noText : decode? bytes = none)
    (first : Yaml.read (.ofBytes bytes) = .error .undecodable) : Escapes t path .undecodable
  | scalar {bytes : ByteArray} {bad : Yaml.BadScalar} (found : t.read path = .ok bytes)
    (first : Yaml.read (.ofBytes bytes) = .error (.scalar bad)) : Escapes t path (.scalar bad)

/-- A path leads to a file that can be read and whose document describes settings. -/
def Describes (t : Tree) (path : Path) (m : Machine) : Prop :=
  ∃ bytes v, t.read path = .ok bytes ∧ Yaml.read (.ofBytes bytes) = .ok v ∧
    Machine.ofDocument v = .ok m

/-- How loading settings may end. -/
inductive Ends (t : Tree) (path : Path) : Except Problem Machine → Prop
  | loaded {m : Machine} (described : Describes t path m) : Ends t path (.ok m)
  | failed {f : Failure} (settings : Failure.IsOfSettings f) : Ends t path (.error (.failed f))
  | escaped {e : Unforeseen} (escapes : Escapes t path e) : Ends t path (.error (.unforeseen e))

theorem isOfSettings_configuration (message : String) (hint : Option String)
    (details : List String) :
    Failure.IsOfSettings (.configuration message hint details) :=
  ⟨⟨none, rfl⟩, rfl⟩

/-- A document that does not describe settings is reported as such. -/
theorem isOfSettings_of_ofDocument {v : Value} {f : Failure}
    (h : Machine.ofDocument v = .error f) : Failure.IsOfSettings f := by
  unfold Machine.ofDocument at h
  repeat' split at h
  all_goals cases h
  all_goals exact ⟨⟨_, rfl⟩, rfl⟩

variable {t : Tree} {path : Path}

/-- A file that is read ends in one of these ways. -/
theorem ends_ofSource {bytes : ByteArray} (found : t.read path = .ok bytes) :
    Ends t path (Machine.ofSource path (.ofBytes bytes)) := by
  unfold Machine.ofSource
  cases first : Yaml.read (.ofBytes bytes) with
  | error fault =>
    cases fault with
    | malformed problem => exact .failed (isOfSettings_configuration _ _ _)
    | scalar bad => exact .escaped (.scalar found first)
    | undecodable =>
      exact .escaped (.noText found (Yaml.decode?_of_read_undecodable first) first)
  | ok v =>
    dsimp only
    cases hdocument : Machine.ofDocument v with
    | ok m => exact .loaded ⟨bytes, v, found, first, hdocument⟩
    | error f => exact .failed (isOfSettings_of_ofDocument hdocument)

/-- Only a path that is too long cannot be looked for. -/
theorem tooLong_of_contains {f : Files.Fault} (h : t.contains path = .error f) :
    t.locate path = .error .tooLong ∧ f = ⟨.tooLong, path.text, none⟩ := by
  unfold Tree.contains at h
  split at h
  · cases h
  · exact ⟨‹_›, (Except.error.inj h).symm⟩
  · cases h

/-- What exists is a directory, or a file, which may be locked. -/
theorem read_of_contains (h : t.contains path = .ok true) :
    (t.at? path = some .directory ∧ t.read path = .error ⟨.isDirectory, path.text, none⟩) ∨
      t.read path = .error ⟨.denied, path.text, none⟩ ∨ ∃ bytes, t.read path = .ok bytes := by
  unfold Tree.contains at h
  unfold Tree.at? Tree.read
  cases place : t.locate path with
  | error obstacle => cases obstacle <;> simp [place] at h
  | ok l =>
    simp only [place, Except.ok.injEq] at h
    obtain ⟨entry, found⟩ := Option.isSome_iff_exists.1 h
    simp only [found]
    cases entry with
    | directory => exact Or.inl ⟨rfl, rfl⟩
    | file bytes =>
      dsimp only
      split
      · exact Or.inr (Or.inl rfl)
      · exact Or.inr (Or.inr ⟨bytes, rfl⟩)

/-- What can be read exists. -/
theorem contains_of_read {bytes : ByteArray} (h : t.read path = .ok bytes) :
    t.contains path = .ok true := by
  unfold Tree.read at h
  unfold Tree.contains
  cases place : t.locate path with
  | error obstacle => simp [place] at h
  | ok l =>
    cases found : t.lookup? l with
    | none => simp [place, found] at h
    | some entry => simp [found]

/-- A directory exists, and it is not read. -/
theorem read_directory (h : t.at? path = some .directory) :
    t.contains path = .ok true ∧ t.read path = .error ⟨.isDirectory, path.text, none⟩ := by
  unfold Tree.at? at h
  unfold Tree.contains Tree.read
  cases place : t.locate path with
  | error obstacle => simp [place] at h
  | ok l =>
    simp only [place] at h
    simp only [h]
    exact ⟨rfl, rfl⟩

/-! ## What loading does, by what is found -/

theorem load_of_contains_error {f : Files.Fault} (h : t.contains path = .error f) :
    Machine.load t path = .error (.unforeseen (.file f)) := by
  rw [Machine.load, fileExists, h]
  rfl

theorem load_of_absent (h : t.contains path = .ok false) :
    Machine.load t path = .error (.failed (.configuration
      ("Configuration file not found: " ++ path.text)
      (some "Create it with: fwd config init"))) := by
  rw [Machine.load, fileExists, h]
  rfl

theorem load_of_read_error {f : Files.Fault} (there : t.contains path = .ok true)
    (h : t.read path = .error f) :
    Machine.load t path = if f.obstacle = .denied then
      .error (.failed (.configuration ("Cannot read configuration file: " ++ path.text)
        (some "Check file permissions or run with sudo")))
      else .error (.unforeseen (.file f)) := by
  rw [Machine.load, fileExists, there, h]
  rfl

theorem load_of_read {bytes : ByteArray} (h : t.read path = .ok bytes) :
    Machine.load t path = Machine.ofSource path (.ofBytes bytes) := by
  rw [Machine.load, fileExists, contains_of_read h, h]
  rfl

/-- Whatever is found, loading ends in one of these ways. -/
theorem ends_load (t : Tree) (path : Path) : Ends t path (Machine.load t path) := by
  cases there : t.contains path with
  | error f =>
    obtain ⟨long, rfl⟩ := tooLong_of_contains there
    rw [load_of_contains_error there]
    exact .escaped (.tooLong long)
  | ok found =>
    cases found with
    | false =>
      rw [load_of_absent there]
      exact .failed (isOfSettings_configuration _ _ _)
    | true =>
      rcases read_of_contains there with ⟨directory, read⟩ | read | ⟨bytes, read⟩
      · rw [load_of_read_error there read]
        exact .escaped (.directory directory)
      · rw [load_of_read_error there read]
        exact .failed (isOfSettings_configuration _ _ _)
      · rw [load_of_read read]
        exact ends_ofSource read

/-- Whatever can escape does so. -/
theorem load_of_escapes {e : Unforeseen} (h : Escapes t path e) :
    Machine.load t path = .error (.unforeseen e) := by
  cases h with
  | tooLong long =>
    apply load_of_contains_error
    rw [Tree.contains, long]
    rfl
  | directory found =>
    obtain ⟨there, read⟩ := read_directory found
    rw [load_of_read_error there read]
    rfl
  | noText found noText first =>
    rw [load_of_read found, Machine.ofSource, first]
  | scalar found first =>
    rw [load_of_read found, Machine.ofSource, first]

/-- What a path leads to is loaded. -/
theorem load_of_describes {m : Machine} (h : Describes t path m) : Machine.load t path = .ok m := by
  obtain ⟨bytes, v, found, document, settings⟩ := h
  rw [load_of_read found, Machine.ofSource, document]
  dsimp only
  rw [settings]

/-- For every file tree and every path:

* loading gives just the settings that the path leads to;
* when it fails, it reports that the settings are at fault, with the exit code for that;
* it ends without such a report exactly on the events that `Escapes` lists.

A tree has no directories that must not be searched, and reading has no limit for how deeply a
document is nested, so that what these lead to is not among the events. -/
theorem load_comes_to (t : Tree) (path : Path) :
    (∀ m, Machine.load t path = .ok m ↔ Describes t path m) ∧
    (∀ f, Machine.load t path = .error (.failed f) → Failure.IsOfSettings f) ∧
    ∀ e, Machine.load t path = .error (.unforeseen e) ↔ Escapes t path e := by
  have ends := ends_load t path
  refine ⟨fun m => ⟨?_, load_of_describes⟩, ?_, fun e => ⟨?_, load_of_escapes⟩⟩
  · intro loaded
    rw [loaded] at ends
    cases ends with
    | loaded described => exact described
  · intro f failed
    rw [failed] at ends
    cases ends with
    | failed settings => exact settings
  · intro escaped
    rw [escaped] at ends
    cases ends with
    | escaped escapes => exact escapes

/-- A settings file in the working directory, and nothing else. -/
def single (bytes : ByteArray) : Tree := { entries := [(["config.yaml"], .file bytes)] }

/-- A number that is no integer but says that it is one, bytes that are no text, and a directory. -/
theorem load_may_escape :
    Machine.load (single (encode "firewall:\n  command_timeout: !!int 5.5\n"))
        (.ofText "config.yaml") = .error (.unforeseen (.scalar (.integer 10 ⟨"5.5", false⟩))) ∧
      Machine.load (single ⟨#[0xFF, 0x00]⟩) (.ofText "config.yaml") =
        .error (.unforeseen .undecodable) ∧
      Machine.load {} (.ofText ".") =
        .error (.unforeseen (.file ⟨.isDirectory, ".", none⟩)) := by
  decide +kernel

end Config

end Pinhole
