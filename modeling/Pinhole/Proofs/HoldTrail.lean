import Pinhole.Proofs.AddedLines
import Pinhole.Proofs.Attempts
import Pinhole.Proofs.Report

/-!
# What a hold puts on record

A hold stores an event for each finished attempt to open a hole, and one for the closing of all
holes. With a journal that is kept and writable, `hold_trail` says which events these are, that
their lines are added to the log, and with which exit code the call ends. When the user interrupts
the closing itself, the event about it is missing (`closing_stored`).
-/

namespace Pinhole

open Audit

/-! ## What is requested -/

namespace CommandLine

/-- What goes before all else is no request. -/
theorem Given.urgent?_ne_request {g : Given} {r : Request} : g.urgent? ≠ some (.request r) := by
  intro h
  obtain ⟨x, -, hx⟩ := List.exists_of_findSome?_eq_some h
  obtain ⟨s, v⟩ := x
  cases s <;> cases hx

/-- A group that makes a request leaves it to one of its members. -/
theorem readGroup_eq_request {known : List Switch}
    {member? : String → Option (List String → Meaning)} {words : List String} {r : Request}
    (h : readGroup known member? words = .request r) :
    ∃ name next rest, member? name = some next ∧ next rest = .request r := by
  unfold readGroup at h
  split at h
  · cases h
  · split at h
    · rename_i m _ hm
      subst h
      exact absurd hm Given.urgent?_ne_request
    · cases h
    · rename_i name rest _ _
      split at h
      · exact ⟨name, _, rest, ‹_›, h⟩
      · cases hurgent : (scan known false (name :: rest)).bind (·.urgent?) with
        | none =>
          simp only [hurgent, Option.getD_none, reduceCtorEq] at h
        | some m =>
          obtain ⟨g, -, hg⟩ := Option.bind_eq_some_iff.1 hurgent
          simp only [hurgent, Option.getD_some] at h
          subst h
          exact absurd hg Given.urgent?_ne_request

/-- A command that makes a request makes it of what is given. -/
theorem Command.read_eq_request {c : Command} {t : Files.Tree} {words : List String} {r : Request}
    (h : c.read t words = .request r) : ∃ g, c.request t g = some r := by
  unfold Command.read at h
  split at h
  · cases h
  · rename_i g _
    split at h
    · rename_i m hm
      subst h
      exact absurd hm Given.urgent?_ne_request
    · split at h
      · rename_i made
        cases h
        exact ⟨g, made⟩
      · cases h

/-- The holes of a request are those for the TCP ports and then those for the UDP ports. -/
theorem read_hold_ports {t : Files.Tree} {words : List String} {f : Flags}
    {ports : List (Protocol × Int)} {interface : String}
    (h : read t words = .request (.hold f ports interface)) :
    ∃ tcp udp : List Int, ports = tcp.map (Protocol.tcp, ·) ++ udp.map (Protocol.udp, ·) := by
  obtain ⟨name, next, rest, hnext, h⟩ := readGroup_eq_request h
  obtain ⟨command?, hgroup, rfl⟩ := Option.map_eq_some_iff.1 hnext
  obtain ⟨name', next, rest', hnext, h⟩ := readGroup_eq_request h
  obtain ⟨c, hcommand, rfl⟩ := Option.map_eq_some_iff.1 hnext
  obtain ⟨g, hg⟩ := Command.read_eq_request h
  unfold group? at hgroup
  -- Each group has its own commands, and only that of holes can request a hold.
  split at hgroup
  · cases hgroup
    unfold holeCommand? at hcommand
    split at hcommand <;> cases hcommand
    obtain ⟨-, -, hg⟩ := Option.bind_eq_some_iff.1 hg
    obtain ⟨tcp, -, hg⟩ := Option.bind_eq_some_iff.1 hg
    obtain ⟨udp, -, hg⟩ := Option.bind_eq_some_iff.1 hg
    obtain ⟨flags, -, hg⟩ := Option.bind_eq_some_iff.1 hg
    cases hg
    exact ⟨tcp, udp, rfl⟩
  · cases hgroup
    unfold steeringCommand? at hcommand
    split at hcommand <;> cases hcommand
    all_goals
      obtain ⟨-, -, hg⟩ := Option.bind_eq_some_iff.1 hg
      obtain ⟨interface, -, hg⟩ := Option.bind_eq_some_iff.1 hg
      obtain ⟨flags, -, hg⟩ := Option.bind_eq_some_iff.1 hg
      cases hg
  · cases hgroup
    unfold settingsCommand? at hcommand
    split at hcommand <;> cases hcommand
    all_goals obtain ⟨-, -, hg⟩ := Option.bind_eq_some_iff.1 hg
    case h_4 => cases hg
    all_goals
      obtain ⟨flags, -, hg⟩ := Option.bind_eq_some_iff.1 hg
      cases hg
  · cases hgroup

end CommandLine

/-! ## Records -/

/-- The record of a finished attempt. -/
def Attempt.record (x : Attempt) (stamp : Stamp) (dryRun : Bool) (interface : String) : Event :=
  .holePunched stamp (.of dryRun x.outcome.isOk) x.protocol.name (.int x.port) interface
    (Desk.errorText? x.outcome)

/-- The record of the closing of all holes, by those that are still open. -/
def closingRecord (stamp : Stamp) (dryRun : Bool) (holes : List Hole) : Event :=
  .holesPlugged stamp (if holes.isEmpty then .of dryRun true else .failure)
    (holes.map (·.describe))
    (if holes.isEmpty then none else some (Toolkit.stillOpen holes).message)

/-- The exit code of a call that leaves no hole open. -/
def Attempts.code (a : Attempts) : Nat :=
  match a.failed? with
  | none => 0
  | some x => if x.outcome.kind = .validation then 3 else 15

/-- How the opening of holes ends: by itself, or with a failure for the attempt that failed. -/
inductive Attempts.Ends (a : Attempts) : Except Halt Unit → Prop
  | finished (none : a.failed? = none) : Ends a (.ok ())
  | failed {x : Attempt} {f : Failure} (first : a.failed? = some x)
    (code : f.exitCode = a.code) : Ends a (.error (.failed f))

/-- The failure that reports an outcome has the exit code of its kind. -/
theorem Outcome.exitCode_of_failure? {o : Outcome} {message : String} {hint : Option String}
    {f : Failure} (h : o.failure? message hint = some f) :
    f.exitCode = if o.kind = .validation then 3 else 15 := by
  obtain ⟨kind, text⟩ := o
  cases kind <;> cases h <;> rfl

theorem Attempts.Ends.after {a : Attempts} {x : Attempt} {r : Except Halt Unit} (h : a.Ends r)
    (ok : x.outcome.isOk = true) : (a.after x).Ends r := by
  cases h with
  | finished none => exact .finished ((failed?_after ok).trans none)
  | failed first code =>
    refine .failed ((failed?_after ok).trans first) ?_
    rw [code, Attempts.code, Attempts.code, failed?_after ok]

namespace Desk

variable {d : Desk} {files : Files.Tree} {es : List Event} {s : TaskState}

/-- Storing an event adds a record and changes nothing else. -/
theorem on_audit_recorded (h : d.journal.Recorded files es s.files) (e : Event) :
    ∃ v, (d.audit e).on s = (.ok (), { s with files := v }) ∧
      d.journal.Recorded files (es ++ [e.under s.trail]) v := by
  obtain ⟨v, hv, recorded⟩ := h.log (e.under s.trail)
  refine ⟨v, ?_, recorded⟩
  rw [audit, Task.on_bind, Task.on_get]
  simp only [hv]
  rfl

/-- Opening holes puts each finished attempt on record. -/
theorem on_openEach_recorded (interface : String) (ports : List (Protocol × Int))
    (h : d.journal.Recorded files es s.files) :
    let a := d.toolkit.openAll interface ports s.toSession
    let records := a.finished.map (·.record d.surroundings.stamp d.flags.dryRun interface)
    ∃ r v, (d.openEach interface ports).on s =
        (r, { s with toSession := a.session, files := v }) ∧
      d.journal.Recorded files (es ++ records.map (·.under s.trail)) v ∧
      (r = .error .interrupted ∧ a.failed? = none ∨ a.Ends r) := by
  -- Each attempt changes the session and the files, and adds an event to those that are stored.
  induction ports generalizing s es with
  | nil =>
    refine ⟨_, s.files, rfl, ?_, Or.inr (.finished rfl)⟩
    simpa [Toolkit.openAll] using h
  | cons port rest ih =>
    obtain ⟨protocol, port⟩ := port
    obtain ⟨r, t, ht, course⟩ := d.toolkit.on_punch protocol (.int port) interface s.toSession
    simp only [openEach, Task.on_bind, Task.on_lift, ht, Toolkit.openAll]
    cases r with
    | error e =>
      obtain rfl : e = .interrupted := course.error_eq
      refine ⟨_, s.files, rfl, ?_, Or.inl ⟨rfl, rfl⟩⟩
      simpa using h
    | ok o =>
      -- The attempt is put on record before its outcome decides how to go on.
      let x : Attempt := ⟨protocol, port, o⟩
      obtain ⟨u, hu, recorded⟩ := on_audit_recorded (s := { s with toSession := t }) h
        (x.record d.surroundings.stamp d.flags.dryRun interface)
      change (d.audit (.holePunched d.surroundings.stamp (d.ending o.isOk) protocol.name (.int port)
        interface (errorText? o))).on _ = _ at hu
      simp only [Except.mapError, hu, on_require]
      cases hok : o.isOk with
      | false =>
        cases hfailure : o.failure? ("Could not open " ++ protocol.title ++ " port " ++ toString port)
            (some "Run with -vvv to see the iptables commands") with
        | none =>
          rw [(o.failure?_eq_none_iff _ _).1 hfailure] at hok
          cases hok
        | some f =>
          have hfailed : Attempts.failed? { finished := [x], session := t } = some x := by
            simp [Attempts.failed?, x, hok]
          have hcode : f.exitCode = Attempts.code { finished := [x], session := t } := by
            rw [Outcome.exitCode_of_failure? hfailure, Attempts.code, hfailed]
          exact ⟨_, u, rfl, recorded, Or.inr (.failed hfailed hcode)⟩
      | true =>
        rw [(o.failure?_eq_none_iff _ _).2 hok]
        obtain ⟨r, v, hv, recorded, ends⟩ :=
          ih (s := { s with toSession := t, files := u }) recorded
        refine ⟨r, v, hv, ?_, ?_⟩
        · simpa [Attempts.after, x] using recorded
        · refine ends.imp (fun hcut => ⟨hcut.1, ?_⟩) (·.after hok)
          exact (Attempts.failed?_after (x := x) hok).trans hcut.2

/-- Waiting only shows something. -/
theorem on_waitForUser_shown (d : Desk) (s : TaskState) :
    ∃ shown, (d.waitForUser).on s = (.ok (), { s with shown := shown }) := by
  rw [waitForUser]
  split
  · exact ⟨_, Task.on_show_visible d.console _ s⟩
  · simp only [Task.on_bind, Task.on_say_visible, Task.on_show_visible]
    exact ⟨_, rfl⟩

/-- Opening holes and waiting puts each finished attempt on record. An interrupt counts as a signal
to go on. -/
theorem on_openAndWait_recorded (interface : String) (ports : List (Protocol × Int))
    (h : d.journal.Recorded files es s.files) :
    let a := d.toolkit.openAll interface ports s.toSession
    let records := a.finished.map (·.record d.surroundings.stamp d.flags.dryRun interface)
    ∃ r v shown, (d.openAndWait ports interface).on s =
        (r, { s with toSession := { a.session with shown := shown }, files := v }) ∧
      d.journal.Recorded files (es ++ records.map (·.under s.trail)) v ∧ a.Ends r := by
  intro a records
  obtain ⟨r, v, hv, recorded, ends⟩ := on_openEach_recorded interface ports h
  rw [openAndWait, Task.on_bind, Task.on_attempt, hv]
  rcases ends with ⟨rfl, none⟩ | ends
  · -- After an interrupt there is no waiting, and nothing is wrong.
    simp only [Task.on_bind, Task.on_say_visible, Task.on_show_visible]
    exact ⟨_, v, _, rfl, recorded, .finished none⟩
  · cases ends with
    | finished none =>
      simp only [Task.on_bind, Task.on_say_visible]
      obtain ⟨shown, hwait⟩ := on_waitForUser_shown d
        { s with
          toSession := { a.session with
            shown := a.session.shown ++ d.console.visible
              (.message .success ("Opened " ++ toString ports.length ++ " hole(s)")) },
          files := v }
      exact ⟨_, v, shown, hwait, recorded, .finished none⟩
    | failed first code => exact ⟨_, v, a.session.shown, rfl, recorded, .failed first code⟩

/-- What is answered and put on record when all holes are closed, and how this ends after
`opened`. -/
inductive Closing (d : Desk) (files : Files.Tree) (es : List Event) (s t : TaskState)
    (opened : Except Halt Unit) (fs : List Exchange) : Except Halt Unit → Prop
  | interrupted (cut : ∃ e ∈ fs, e.answer.reply = .cut)
    (recorded : d.journal.Recorded files es t.files) :
    Closing d files es s t opened fs (.error .interrupted)
  | finished (uncut : ∀ e ∈ fs, e.answer.reply ≠ .cut)
    (once : d.toolkit.executor.dryRun = false → ∀ x : Hole,
      fs.countP (fun e => e.change = .inFilter .primary .delete x.rule) =
        if x ∈ s.registry then 1 else 0)
    (recorded : d.journal.Recorded files
      (es ++ [(closingRecord d.surroundings.stamp d.flags.dryRun t.registry.holes).under s.trail])
      t.files) :
    Closing d files es s t opened fs
      (if t.registry.holes.isEmpty then opened
        else .error (.failed (Toolkit.stillOpen t.registry.holes)))

/-- Closing all holes deletes rules of theirs and puts this on record, unless the user interrupts
it. -/
theorem on_closeAfter_recorded {a : Attempts} {opened : Except Halt Unit} (ends : a.Ends opened)
    (valid : ∀ h ∈ s.registry, h.Valid) (h : d.journal.Recorded files es s.files) :
    ∃ r t fs, (d.closeAfter opened).on s = (r, t) ∧ t.exchanges = s.exchanges ++ fs ∧
      (∀ e ∈ fs, ∃ h ∈ s.registry, ∃ f, e.change = .inFilter f .delete h.rule) ∧
      d.Closing files es s t opened fs r := by
  obtain ⟨q, t, ht, course⟩ := d.toolkit.on_plugAll s.toSession
  obtain ⟨fs, log, about, stopped, once⟩ := course.log_once s.registry.nodup fun h hs =>
    ⟨hs, valid h hs⟩
  rw [closeAfter]
  simp only [Task.on_bind, Task.on_attempt, Task.on_lift, ht]
  cases q with
  | error x =>
    -- An interrupt of the closing leaves at once, past the event.
    obtain rfl : x = .interrupted := course.error_eq
    exact ⟨_, { s with toSession := t }, fs, rfl, log, about, .interrupted (stopped.1 ⟨_, rfl⟩) h⟩
  | ok u =>
    have uncut : ∀ e ∈ fs, e.answer.reply ≠ .cut := fun e he hcut => by
      obtain ⟨x, hx⟩ := stopped.2 ⟨e, he, hcut⟩
      cases hx
    obtain ⟨v, hv, recorded⟩ := on_audit_recorded (s := { s with toSession := t }) h
      (closingRecord d.surroundings.stamp d.flags.dryRun t.registry.holes)
    have finished : ∀ shown, d.Closing files es s
        { s with toSession := { t with shown := shown }, files := v } opened fs
        (if t.registry.holes.isEmpty then opened
          else .error (.failed (Toolkit.stillOpen t.registry.holes))) :=
      fun shown => .finished uncut (once rfl) recorded
    rw [Registry.pluggedAll]
    cases hempty : t.registry.holes.isEmpty with
    | false =>
      have hrecord : closingRecord d.surroundings.stamp d.flags.dryRun t.registry.holes =
          .holesPlugged d.surroundings.stamp .failure
            (Toolkit.stillOpen t.registry.holes).remaining
            (some (Toolkit.stillOpen t.registry.holes).message) := by
        rw [closingRecord, hempty]
        rfl
      rw [hrecord] at hv
      simp only [hempty, Bool.false_eq_true, if_false] at finished
      simp only [Bool.false_eq_true, if_false, Except.mapError, Halt.ofStop, Task.on_bind, hv]
      exact ⟨_, _, fs, rfl, log, about, finished t.shown⟩
    | true =>
      have hrecord : closingRecord d.surroundings.stamp d.flags.dryRun t.registry.holes =
          .holesPlugged d.surroundings.stamp (d.ending true) := by
        rw [closingRecord, List.isEmpty_iff.1 hempty]
        rfl
      have hinOrder : endedInOrder opened = true := by cases ends <;> rfl
      rw [hrecord] at hv
      simp only [hempty, if_true] at finished
      simp only [if_true, Except.mapError, hinOrder, Task.on_bind, hv, Task.on_resume]
      cases ends with
      | finished none =>
        simp only [Task.on_say_visible]
        exact ⟨_, _, fs, rfl, log, about, finished _⟩
      | failed first code => exact ⟨_, _, fs, rfl, log, about, finished t.shown⟩

/-- A hold opens holes and closes them, and puts both on record. -/
theorem on_hold_recorded (interface : String) (ports : List (Protocol × Int))
    (valid : ∀ h ∈ s.registry, h.Valid) (h : d.journal.Recorded files es s.files) :
    let a := d.toolkit.openAll interface ports s.toSession
    let records := a.finished.map (·.record d.surroundings.stamp d.flags.dryRun interface)
    ∃ opened r t u fs, (d.hold ports interface).on s = (r, t) ∧ a.Ends opened ∧
      Quiet a.session u.toSession ∧ u.trail = s.trail ∧ t.exchanges = u.exchanges ++ fs ∧
      (∀ e ∈ fs, ∃ h ∈ u.registry, ∃ f, e.change = .inFilter f .delete h.rule) ∧
      d.Closing files (es ++ records.map (·.under s.trail)) u t opened fs r := by
  intro a records
  obtain ⟨opened, v, shown, hv, recorded, ends⟩ := on_openAndWait_recorded interface ports h
  let u : TaskState := { s with toSession := { a.session with shown := shown }, files := v }
  have inTurn : a.InTurn d.toolkit interface ports s.toSession :=
    d.toolkit.inTurn_openAll interface ports s.toSession
  have valid_u : ∀ x ∈ u.registry, x.Valid := by
    change ∀ x ∈ a.session.registry, x.Valid
    rw [inTurn.session]
    exact (d.toolkit.moves_serve _ s.toSession).valid valid
  obtain ⟨r, t, fs, ht, closing⟩ := on_closeAfter_recorded (s := u) ends valid_u recorded
  refine ⟨opened, r, t, u, fs, ?_, ends, ⟨rfl, rfl, rfl⟩, rfl, closing⟩
  rw [hold, Task.on_bind, Task.on_attempt, hv]
  exact ht

end Desk

/-! ## The call -/

/-- A machine with a directory for the journal. -/
def Files.Tree.withJournal : Files.Tree where
  entries := [(["var"], .directory), (["var", "log"], .directory),
    (["var", "log", "fwd"], .directory)]

/-- The settings when nothing is said about them. -/
def Config.InForce.standard : Config.InForce where
  path := standardPath
  machine := {}
  auditLog := .ofText "/var/log/fwd/audit.log"

theorem loads_withJournal : Config.InForce.load .withJournal [] none = .ok .standard := by
  decide +kernel

/-- What the words of the calls below ask for. -/
theorem read_two_ports :
    CommandLine.read .withJournal ["hole", "hold", "--tcp", "22", "--tcp", "80"] =
      .request (.hold {} [(.tcp, 22), (.tcp, 80)] "") := by
  decide +kernel

/-- The journal when nothing is said about it. -/
def Audit.Journal.standard : Journal := .kept Config.InForce.standard.auditLog true

theorem Files.Tree.contentAt_withJournal (l : Location) : withJournal.contentAt l = .empty :=
  contentAt_of_directories (by simp [withJournal]) l

theorem writable_withJournal : Journal.standard.Writable .withJournal := by
  refine Journal.Housed.writable (l := ["var", "log", "fwd"]) ⟨by decide +kernel, by decide +kernel,
    by decide +kernel, fun n hn => ⟨?_, ?_⟩⟩
  · revert n
    decide +kernel
  · revert n
    decide +kernel

section Call

variable {w : Surroundings} {files : Files.Tree} {words : List String} {f : Flags}
  {ports : List (Protocol × Int)} {interface : String} {settings : Config.InForce}

/-- What a call that holds holes comes to: the attempts to open them, what is asked of the tools to
close them, what the journal gets, and how this ends. -/
theorem call_hold (reads : CommandLine.read files words = .request (.hold f ports interface))
    (asked : ports ≠ []) (allowed : w.root = true ∨ f.dryRun = true)
    (loads : Config.InForce.load files w.environment f.config = .ok settings)
    (enabled : (Desk.ofSettings w f settings).journal.enabled = true)
    (writable : (Desk.ofSettings w f settings).journal.Writable files) :
    let d := Desk.ofSettings w f settings
    let s : Session := { ipv6 := settings.machine.firewall.ipv6AlwaysEnabled }
    let a := d.toolkit.openAll interface ports s
    let c := call w files words
    let under := Event.under (Trail.enter w.token "hole_hold" {})
    let punches := a.finished.map (·.record w.stamp f.dryRun interface)
    let closing := closingRecord w.stamp f.dryRun c.2.registry.holes
    ∃ opened r fs, a.Ends opened ∧ c.1 = .ofTask (Halt.reported r) ∧
      c.2.exchanges = a.session.exchanges ++ fs ∧
      (∀ e ∈ fs, ∃ h ∈ a.session.registry, ∃ g, e.change = .inFilter g .delete h.rule) ∧
      ((∃ e ∈ fs, e.answer.reply = .cut) →
        r = .error .interrupted ∧ d.journal.Stores files (punches.map under) c.2.files) ∧
      ((∀ e ∈ fs, e.answer.reply ≠ .cut) →
        d.journal.Stores files ((punches ++ [closing]).map under) c.2.files ∧
        (r = if c.2.registry.holes.isEmpty then opened
          else .error (.failed (Toolkit.stillOpen c.2.registry.holes))) ∧
        (f.dryRun = false → ∀ h : Hole,
          fs.countP (fun e => e.change = .inFilter .primary .delete h.rule) =
            if h ∈ a.session.registry then 1 else 0)) := by
  intro d s a c under punches closing
  let trail := Trail.enter w.token "hole_hold" {}
  let start : TaskState := { toSession := s, files := files, trail := trail }
  have recorded : d.journal.Recorded files [] start.files :=
    ⟨enabled, Journal.stores_nil _ _, writable⟩
  obtain ⟨opened, r, t, u, fs, ht, ends, quiet, htrail, log, about, closed⟩ :=
    Desk.on_hold_recorded (d := d) (s := start) interface ports nofun recorded
  have htask : (Task.hold w f ports interface).on { files } =
      reported (r, { t with trail := t.trail.leave }) := by
    have hempty : ports.isEmpty = false := by simpa using asked
    refine (Task.on_hold allowed loads ports interface).trans ?_
    rw [hempty]
    exact congrArg (fun p : Except Halt Unit × TaskState =>
      reported (p.1, { p.2 with trail := p.2.trail.leave })) ht
  obtain ⟨shown, hreported⟩ := reported_eq r { t with trail := t.trail.leave }
  have hc : c = (.ofTask (Halt.reported r), { t with trail := t.trail.leave, shown := shown }) := by
    simp only [c, call, reads, CommandLine.Meaning.perform, CommandLine.Request.perform, htask,
      hreported]
  clear_value c
  -- Only the trail and what is shown change after the closing.
  have hexchanges : c.2.exchanges = t.exchanges := congrArg (·.2.exchanges) hc
  have hregistry : c.2.registry = t.registry := congrArg (·.2.registry) hc
  have hfiles : c.2.files = t.files := congrArg (·.2.files) hc
  have hclosing : closing = closingRecord w.stamp f.dryRun t.registry.holes :=
    congrArg (fun g : Registry => closingRecord w.stamp f.dryRun g.holes) hregistry
  rw [hexchanges, hregistry, hfiles, hclosing, ← quiet.exchanges, ← quiet.same.registry]
  refine ⟨opened, r, fs, ends, congrArg Prod.fst hc, log, about, fun cut => ?_, fun uncut => ?_⟩
  · cases closed with
    | interrupted _ recorded => exact ⟨rfl, recorded.stores⟩
    | finished uncut once recorded =>
      obtain ⟨e, he, hcut⟩ := cut
      exact absurd hcut (uncut e he)
  · cases closed with
    | interrupted cut recorded =>
      obtain ⟨e, he, hcut⟩ := cut
      exact absurd hcut (uncut e he)
    | finished _ once recorded =>
      have stores := recorded.stores
      rw [htrail] at stores
      rw [List.map_append]
      exact ⟨stores, rfl, once⟩

/-- Let root hold holes open, not on a dry run, with settings that can be loaded and a journal that
is kept and writable, and let nobody interrupt the closing. The attempts to open holes are made in
the order of the request, TCP ports first. After the one that fails or is interrupted nothing more
is opened, and each hole that is tracked then is closed in one try. The journal gets a record for
each finished attempt and one for the closing, which names the holes that are still open, all for
the same operation: their lines are added to what was in the log. If there are such holes, the call
ends with their exit code, else with that of the attempt that failed. -/
theorem hold_trail (reads : CommandLine.read files words = .request (.hold f ports interface))
    (asked : ports ≠ []) (root : w.root = true) (live : f.dryRun = false)
    (loads : Config.InForce.load files w.environment f.config = .ok settings)
    (enabled : (Desk.ofSettings w f settings).journal.enabled = true)
    (writable : (Desk.ofSettings w f settings).journal.Writable files) :
    let d := Desk.ofSettings w f settings
    let s : Session := { ipv6 := settings.machine.firewall.ipv6AlwaysEnabled }
    let a := d.toolkit.openAll interface ports s
    let c := call w files words
    let records := (a.finished.map (·.record w.stamp false interface) ++
      [closingRecord w.stamp false c.2.registry.holes]).map
        (·.under (Trail.enter w.token "hole_hold" {}))
    (∃ tcp udp : List Int, ports = tcp.map (Protocol.tcp, ·) ++ udp.map (Protocol.udp, ·)) ∧
      a.InTurn d.toolkit interface ports s ∧
      ∃ fs, c.2.exchanges = a.session.exchanges ++ fs ∧
        (∀ e ∈ fs, ∃ h ∈ a.session.registry, ∃ g, e.change = .inFilter g .delete h.rule) ∧
        ((∀ e ∈ fs, e.answer.reply ≠ .cut) →
          (∀ h : Hole, fs.countP (fun e => e.change = .inFilter .primary .delete h.rule) =
            if h ∈ a.session.registry then 1 else 0) ∧
          d.journal.Stores files records c.2.files ∧
          (∃ l, d.journal.Adds files records c.2.files l) ∧
          c.1 = .exit (if c.2.registry.holes = [] then a.code else 20)) := by
  intro d s a c records
  obtain ⟨opened, r, fs, ends, hc, log, about, -, uncut⟩ :=
    call_hold reads asked (Or.inl root) loads enabled writable
  refine ⟨CommandLine.read_hold_ports reads, d.toolkit.inTurn_openAll interface ports s, fs, log,
    about, fun h => ?_⟩
  obtain ⟨stores, hr, once⟩ := uncut h
  rw [live] at stores
  refine ⟨once live, stores, Journal.adds_of_stores stores (by simp [records]), hc.trans ?_⟩
  rw [hr]
  cases hempty : c.2.registry.holes with
  | nil =>
    cases ends with
    | finished none =>
      have hcode : a.code = 0 := by rw [Attempts.code, none]
      rw [if_pos rfl, hcode]
      rfl
    | failed first code =>
      rw [if_pos rfl, ← code]
      rfl
  | cons h hs => rfl

/-- The line that puts on record that all holes have been closed. -/
def closedLine : String :=
  "\x7b\"correlation_id\": \"hole_hold-\", \"error\": null, \"event_type\": \"hole.plug_all\", " ++
  "\"interface\": \"\", \"port\": null, \"protocol\": null, \"remaining\": [], " ++
  "\"result\": \"success\", \"timestamp\": \"\", \"uid\": 0, \"usernames\": []\x7d\n"

/-- The first of two holes cannot be opened. -/
theorem trail_of_refused_hole :
    let w := Surroundings.scripted [.refusal]
    let c := call w .withJournal ["hole", "hold", "--tcp", "22", "--tcp", "80"]
    let records : List Event :=
      [.holePunched w.stamp .failure "tcp" (.int 22) ""
          (some "external_failure: Adding ACCEPT rules failed for TCP port 22 on any interface"),
        .holesPlugged w.stamp .success]
    let refusedLine :=
      "\x7b\"correlation_id\": \"hole_hold-\", " ++
      "\"error\": \"external_failure: Adding ACCEPT rules failed for TCP port 22 on any " ++
      "interface\", \"event_type\": \"hole.punch\", \"interface\": \"\", \"port\": 22, " ++
      "\"protocol\": \"tcp\", \"remaining\": [], \"result\": \"failure\", " ++
      "\"timestamp\": \"\", \"uid\": 0, \"usernames\": []\x7d\n"
    c.1 = .exit 15 ∧ Journal.standard.Stores .withJournal
      (records.map (·.under (Trail.enter w.token "hole_hold" {}))) c.2.files ∧
      c.2.files.at? Journal.standard.path =
        some (.file (Files.encode (refusedLine ++ closedLine))) := by
  intro w
  have hcall : let c := call w .withJournal ["hole", "hold", "--tcp", "22", "--tcp", "80"]
      c.2.registry.holes = [] ∧ ∀ e ∈ c.2.exchanges, e.answer.reply ≠ .cut := by
    decide +kernel
  have h := hold_trail (w := w) read_two_ports (by decide) rfl rfl loads_withJournal rfl
    writable_withJournal
  generalize call w .withJournal ["hole", "hold", "--tcp", "22", "--tcp", "80"] = c at h hcall ⊢
  obtain ⟨hholes, huncut⟩ := hcall
  obtain ⟨-, -, fs, log, -, h⟩ := h
  obtain ⟨-, stores, ⟨l, adds⟩, code⟩ := h fun e he => huncut e (log ▸ List.mem_append_right _ he)
  rw [if_pos hholes] at code
  rw [hholes] at stores adds
  exact ⟨code, stores, adds.at?_of_new (Files.Tree.contentAt_withJournal l) (by decide +kernel)
    (by decide +kernel)⟩

/-- Let holes be held open, really or on a dry run, with settings that can be loaded and a journal
that is kept and writable. If nobody interrupts the closing, the journal gets one record for it, the
last one, which names the holes that are still open. If someone does, the call ends with the exit
code of an interrupt, and the journal gets no record of the closing. The lines of the records are
what is added to the log; without any the files stay as they are. -/
theorem closing_stored (reads : CommandLine.read files words = .request (.hold f ports interface))
    (asked : ports ≠ []) (allowed : w.root = true ∨ f.dryRun = true)
    (loads : Config.InForce.load files w.environment f.config = .ok settings)
    (enabled : (Desk.ofSettings w f settings).journal.enabled = true)
    (writable : (Desk.ofSettings w f settings).journal.Writable files) :
    let d := Desk.ofSettings w f settings
    let s : Session := { ipv6 := settings.machine.firewall.ipv6AlwaysEnabled }
    let a := d.toolkit.openAll interface ports s
    let c := call w files words
    let under := Event.under (Trail.enter w.token "hole_hold" {})
    let punches := a.finished.map (·.record w.stamp f.dryRun interface)
    let closing := closingRecord w.stamp f.dryRun c.2.registry.holes
    ∃ fs, c.2.exchanges = a.session.exchanges ++ fs ∧
      ((∀ e ∈ fs, e.answer.reply ≠ .cut) →
        d.journal.Stores files ((punches ++ [closing]).map under) c.2.files ∧
          ∃ l, d.journal.Adds files ((punches ++ [closing]).map under) c.2.files l) ∧
      ((∃ e ∈ fs, e.answer.reply = .cut) →
        c.1 = .exit CallEnd.interruptedCode ∧
          d.journal.Stores files (punches.map under) c.2.files ∧
          (punches = [] ∧ c.2.files = files ∨
            ∃ l, d.journal.Adds files (punches.map under) c.2.files l)) := by
  intro d s a c under punches closing
  obtain ⟨opened, r, fs, -, hc, log, -, cut, uncut⟩ :=
    call_hold reads asked allowed loads enabled writable
  refine ⟨fs, log, fun h => ?_, fun h => ?_⟩
  · have stores := (uncut h).1
    exact ⟨stores, Journal.adds_of_stores stores (by simp)⟩
  · obtain ⟨rfl, stores⟩ := cut h
    refine ⟨hc, stores, (Journal.same_or_adds_of_stores stores).imp_left fun same => ?_⟩
    exact ⟨List.map_eq_nil_iff.1 same.1, same.2⟩

/-- The user interrupts the opening of the second hole. -/
theorem stored_after_interrupt :
    let w := Surroundings.scripted [.silent, .silent, .interrupted]
    let c := call w .withJournal ["hole", "hold", "--tcp", "22", "--tcp", "80"]
    let records : List Event :=
      [.holePunched w.stamp .success "tcp" (.int 22) "", .holesPlugged w.stamp .success]
    let openedLine :=
      "\x7b\"correlation_id\": \"hole_hold-\", \"error\": null, \"event_type\": \"hole.punch\", " ++
      "\"interface\": \"\", \"port\": 22, \"protocol\": \"tcp\", \"remaining\": [], " ++
      "\"result\": \"success\", \"timestamp\": \"\", \"uid\": 0, \"usernames\": []\x7d\n"
    Journal.standard.Stores .withJournal
      (records.map (·.under (Trail.enter w.token "hole_hold" {}))) c.2.files ∧
      c.2.files.at? Journal.standard.path =
        some (.file (Files.encode (openedLine ++ closedLine))) := by
  intro w
  have hcall : let c := call w .withJournal ["hole", "hold", "--tcp", "22", "--tcp", "80"]
      c.2.registry.holes = [] ∧ ∀ e ∈ c.2.exchanges.drop 3, e.answer.reply ≠ .cut := by
    decide +kernel
  have hlength :
      ((Desk.ofSettings w {} .standard).toolkit.openAll "" [(.tcp, 22), (.tcp, 80)]
        { ipv6 := Config.InForce.standard.machine.firewall.ipv6AlwaysEnabled
        }).session.exchanges.length = 3 := by
    decide +kernel
  have h := closing_stored (w := w) read_two_ports (by decide) (Or.inl rfl) loads_withJournal rfl
    writable_withJournal
  generalize call w .withJournal ["hole", "hold", "--tcp", "22", "--tcp", "80"] = c at h hcall ⊢
  obtain ⟨hholes, huncut⟩ := hcall
  obtain ⟨fs, log, h, -⟩ := h
  have hfs : c.2.exchanges.drop 3 = fs := by rw [log, List.drop_left' hlength]
  obtain ⟨stores, l, adds⟩ := h (hfs ▸ huncut)
  rw [hholes] at stores adds
  exact ⟨stores, adds.at?_of_new (Files.Tree.contentAt_withJournal l) (by decide +kernel)
    (by decide +kernel)⟩

/-- The user interrupts the closing of a hole. The journal holds one line, about the opening, and
the hole is still open. -/
theorem interrupted_closing_leaves_no_record :
    let w := Surroundings.scripted [.silent, .silent, .interrupted]
    let c := call w .withJournal ["hole", "hold", "--tcp", "22"]
    let punch := Event.under (Trail.enter w.token "hole_hold" {})
      (.holePunched w.stamp .success "tcp" (.int 22) "")
    c.1 = .exit 130 ∧ c.2.registry.holes = [⟨.tcp, 22, ""⟩] ∧
      c.2.files.at? Journal.standard.path = some (.file (Files.encode (punch.line ++ "\n"))) := by
  decide +kernel

end Call

end Pinhole
