import Pinhole.Proofs.Faults
import Pinhole.Proofs.HoldTrail
import Pinhole.Proofs.Report
import Pinhole.Proofs.Verbosity

/-!
# Auditing never stands in the way

The journal is written between every attempt to open a hole and the decision what follows from it,
and while holes are closed. What the system refuses there is told as a warning, and the task goes on
as if the event had been stored. So two calls that differ in where events are kept, in whether they
are, or in what the files there are like, do the same and end in the same way; one of them may tell
more warnings of its journal.

`SameButWarnings` relates the two sessions, and `Task.Alike` the two tasks. The files do not come
into it.
-/

namespace Pinhole

/-! ## The relation -/

/-- Whether an item is a warning that an event could not be stored. -/
def Item.isAuditWarning : Item → Bool
  | .message .warn text => "Could not write audit log ".toList.isPrefixOf text.toList
  | _ => false

/-- What a session shows besides the warnings of its journal. -/
def Session.unwarned (s : Session) : List Item := s.shown.filter (!·.isAuditWarning)

/-- Two sessions differ in nothing but warnings of a journal. -/
structure SameButWarnings (s s' : Session) : Prop where
  spawned : s'.spawned = s.spawned
  same : SameHoles s s'
  unwarned : s'.unwarned = s.unwarned

/-- A journal warns in its own words. -/
theorem Audit.Journal.isAuditWarning_warning (j : Journal) (f : Files.Fault) :
    Item.isAuditWarning (.message .warn (j.warning f)) = true := by
  have words : j.warning f = "Could not write audit log " ++ (j.path.text ++ (": " ++ f.text)) := by
    unfold warning
    rewrite [String.append_assoc, String.append_assoc]
    rfl
  have begins : "Could not write audit log ".toList <+: (j.warning f).toList := by
    rewrite [words, String.toList_append]
    exact List.prefix_append _ _
  exact List.isPrefixOf_iff_prefix.2 begins

namespace SameButWarnings

variable {s s' : Session}

/-- Showing the same keeps two sessions the same. -/
theorem shows (h : SameButWarnings s s') (items : List Item) :
    SameButWarnings { s with shown := s.shown ++ items } { s' with shown := s'.shown ++ items } := by
  refine ⟨h.spawned, ⟨h.same.registry, h.same.ipv6⟩, ?_⟩
  rw [Session.unwarned, Session.unwarned, List.filter_append, List.filter_append]
  exact congrArg (· ++ _) h.unwarned

/-- Warnings of a journal on either side keep two sessions the same. -/
theorem warns (h : SameButWarnings s s') {items items' : List Item}
    (warnings : ∀ i ∈ items, i.isAuditWarning = true)
    (warnings' : ∀ i ∈ items', i.isAuditWarning = true) :
    SameButWarnings { s with shown := s.shown ++ items }
      { s' with shown := s'.shown ++ items' } := by
  have none : ∀ {is : List Item}, (∀ i ∈ is, i.isAuditWarning = true) →
      is.filter (!·.isAuditWarning) = [] :=
    fun his => List.filter_eq_nil_iff.2 fun i hi => by simp [his i hi]
  refine ⟨h.spawned, ⟨h.same.registry, h.same.ipv6⟩, ?_⟩
  rw [Session.unwarned, Session.unwarned, List.filter_append, List.filter_append, none warnings,
    none warnings', List.append_nil, List.append_nil]
  exact h.unwarned

end SameButWarnings

/-- One console shows alike in two such sessions. -/
theorem watched_sameButWarnings (c : Console) : Watched SameButWarnings c c where
  shows item := by
    intro s s' h
    rw [Console.on_show_visible, Console.on_show_visible]
    exact ⟨rfl, h.shows _⟩
  spawned h := h.spawned
  same h := h.same
  spawn h p := ⟨by rw [h.spawned], ⟨h.same.registry, h.same.ipv6⟩, h.unwarned⟩
  learn h := ⟨h.spawned, ⟨h.same.registry, rfl⟩, h.unwarned⟩
  track h g := ⟨h.spawned, ⟨rfl, h.same.ipv6⟩, h.unwarned⟩

/-! ## Alike tasks -/

namespace Task

variable {α β : Type}

/-- From sessions that differ in nothing but warnings two tasks end in the same way, and their
sessions differ in nothing but warnings then. -/
def Alike (x y : Task α) : Prop :=
  ∀ ⦃s s' : TaskState⦄, SameButWarnings s.toSession s'.toSession →
    (y.on s').1 = (x.on s).1 ∧ SameButWarnings (x.on s).2.toSession (y.on s').2.toSession

theorem alike_pure (a : α) : Alike (pure a) (pure a) := fun _ _ h => ⟨rfl, h⟩

theorem alike_throw (e : Halt) : Alike (throw e : Task α) (throw e) := fun _ _ h => ⟨rfl, h⟩

theorem alike_resume (r : Except Halt α) : Alike (resume r) (resume r) := by
  intro s s' h
  rw [on_resume, on_resume]
  exact ⟨rfl, h⟩

/-- Alike parts make alike wholes. -/
theorem alike_bind {x y : Task α} {f g : α → Task β} (h : Alike x y)
    (rest : ∀ a, Alike (f a) (g a)) : Alike (x >>= f) (y >>= g) := by
  intro s s' related
  obtain ⟨hresult, hafter⟩ := h related
  rw [on_bind, on_bind]
  rcases hx : x.on s with ⟨r, t⟩
  rcases hy : y.on s' with ⟨r', t'⟩
  rw [hx, hy] at hresult hafter
  obtain rfl : r' = r := hresult
  cases r' with
  | ok a => exact rest a hafter
  | error e => exact ⟨rfl, hafter⟩

theorem alike_ite {c : Prop} [Decidable c] {x y x' y' : Task α} (h : Alike x y)
    (h' : Alike x' y') : Alike (if c then x else x') (if c then y else y') := by
  split
  · exact h
  · exact h'

/-- Alike actions are alike in tasks. -/
theorem alike_lift {x y : Action α} (h : Action.Alike SameButWarnings x y) :
    Alike (liftM x : Task α) (liftM y) := by
  intro s s' related
  obtain ⟨hresult, hafter⟩ := h related
  rw [on_lift, on_lift]
  exact ⟨by rw [hresult], hafter⟩

theorem alike_show (c : Console) (item : Item) :
    Alike (liftM (c.show item) : Task Unit) (liftM (c.show item)) :=
  alike_lift ((watched_sameButWarnings c).shows item)

theorem alike_say (c : Console) (kind : MessageKind) (text : String) :
    Alike (liftM (c.say kind text) : Task Unit) (liftM (c.say kind text)) :=
  alike_show c (.message kind text)

/-- How alike tasks end is the same. -/
theorem alike_attempt {x y : Task α} (h : Alike x y) : Alike (attempt x) (attempt y) := by
  intro s s' related
  obtain ⟨hresult, hafter⟩ := h related
  rw [on_attempt, on_attempt]
  exact ⟨by rw [hresult], hafter⟩

/-- Alike tasks are alike as audited operations. -/
theorem alike_correlated (w : Surroundings) (operation : String) {x y : Task α} (h : Alike x y) :
    Alike (correlated w operation x) (correlated w operation y) :=
  fun s s' related => @h { s with trail := s.trail.enter w.token operation }
    { s' with trail := s'.trail.enter w.token operation } related

/-- The failures of alike tasks are reported alike. -/
theorem alike_handled (c : Console) {x y : Task Unit} (h : Alike x y) :
    Alike (handled c x) (handled c y) := by
  intro s s' related
  obtain ⟨hresult, hafter⟩ := h related
  rw [on_handled_reported, on_handled_reported]
  rcases hx : x.on s with ⟨r, t⟩
  rcases hy : y.on s' with ⟨r', t'⟩
  rw [hx, hy] at hresult hafter
  obtain rfl : r' = r := hresult
  match r' with
  | .error (.failed f) => exact ⟨rfl, hafter.shows f.report⟩
  | .ok () | .error .interrupted | .error (.unforeseen _) | .error (.exit _) => exact ⟨rfl, hafter⟩

end Task

/-! ## The same desk with another journal -/

/-- The system knows of every fault that a journal meets if it is kept. -/
def Audit.Journal.KnownFaults (j : Journal) : Prop := j.enabled = true → ∀ e, (j.store e).Known

namespace Desk

open Pinhole.Task

/-- The same desk with another journal. -/
def keeping (d : Desk) (j : Audit.Journal) : Desk := { d with journal := j }

/-- An event is stored without a warning or with one, and the task goes on. -/
theorem on_audit_known {d : Desk} (known : d.journal.KnownFaults) (e : Audit.Event) (s : TaskState) :
    ∃ files items, (d.audit e).on s = (.ok (), { s with files, shown := s.shown ++ items }) ∧
      ∀ i ∈ items, i.isAuditWarning = true := by
  rw [audit, on_bind, on_get]
  simp only [Audit.Journal.log]
  split
  · rename_i enabled
    have h := known enabled (e.under s.trail) s.files
    rcases hstore : (d.journal.store (e.under s.trail)).on s.files with ⟨r, files⟩
    rw [hstore] at h
    cases r with
    | ok u => exact ⟨files, [], by rw [List.append_nil]; rfl, by simp⟩
    | error f =>
      have system : f.isOfSystem = true := h f rfl
      simp only [system, if_true]
      refine ⟨files, d.console.visible (.message .warn (d.journal.warning f)), ?_, ?_⟩
      · exact on_say_visible d.console .warn (d.journal.warning f) { s with files }
      · intro i hi
        rw [Console.visible] at hi
        split at hi
        · rw [List.mem_singleton.1 hi]
          exact d.journal.isAuditWarning_warning f
        · cases hi
  · exact ⟨s.files, [], by rw [List.append_nil]; rfl, by simp⟩

variable {d : Desk} {j : Audit.Journal} (known : d.journal.KnownFaults) (known' : j.KnownFaults)

/-- What the toolkit does is alike in two sessions that differ in nothing but warnings. -/
theorem paired (d : Desk) : Paired SameButWarnings d.toolkit d.toolkit :=
  (watched_sameButWarnings d.toolkit.executor.console).paired

/-- What an outcome requires has nothing to do with the journal. -/
theorem alike_require (o : Outcome) (message hint : String) :
    Alike (require o message hint) (require o message hint) := by
  intro s s' related
  rw [on_require, on_require]
  exact ⟨rfl, related⟩

theorem alike_requireRoot : Alike d.requireRoot (d.keeping j).requireRoot := by
  refine alike_ite ?_ (alike_pure _)
  exact alike_bind (alike_say _ _ _) fun _ => alike_bind (alike_say _ _ _) fun _ => alike_throw _

include known known'

/-- Storing an event is alike in two journals. -/
theorem alike_audit (e : Audit.Event) : Alike (d.audit e) ((d.keeping j).audit e) := by
  intro s s' related
  obtain ⟨files, items, hx, warnings⟩ := on_audit_known known e s
  obtain ⟨files', items', hy, warnings'⟩ := on_audit_known (d := d.keeping j) known' e s'
  rw [hx, hy]
  exact ⟨rfl, related.warns warnings warnings'⟩

/-- Holes are opened alike. -/
theorem alike_openEach (interface : String) (ports : List (Protocol × Int)) :
    Alike (d.openEach interface ports) ((d.keeping j).openEach interface ports) := by
  induction ports with
  | nil => exact alike_pure _
  | cons port ports ih =>
    obtain ⟨protocol, port⟩ := port
    unfold openEach
    refine alike_bind (alike_lift (d.paired.punch protocol (.int port) interface)) fun outcome => ?_
    refine alike_bind (alike_audit known known' _) fun _ => ?_
    exact alike_bind (alike_require _ _ _) fun _ => ih

omit known known' in
theorem alike_waitForUser : Alike d.waitForUser (d.keeping j).waitForUser :=
  alike_ite (alike_show _ _) (alike_bind (alike_say _ _ _) fun _ => alike_show _ _)

theorem alike_openAndWait (ports : List (Protocol × Int)) (interface : String) :
    Alike (d.openAndWait ports interface) ((d.keeping j).openAndWait ports interface) := by
  refine alike_bind (alike_attempt (alike_openEach known known' interface ports)) fun opened => ?_
  match opened with
  | .error .interrupted => exact alike_bind (alike_show _ _) fun _ => alike_say _ _ _
  | .ok () => exact alike_bind (alike_say _ _ _) fun _ => alike_waitForUser
  | .error (.failed _) | .error (.unforeseen _) | .error (.exit _) => exact alike_throw _

/-- Holes are closed alike, whatever was before. -/
theorem alike_closeAfter (opened : Except Halt Unit) :
    Alike (d.closeAfter opened) ((d.keeping j).closeAfter opened) := by
  refine alike_bind (alike_attempt (alike_lift d.paired.plugAll)) fun closed => ?_
  have ended : Alike (do resume opened; d.console.say .success "All holes closed")
      (do resume opened; (d.keeping j).console.say .success "All holes closed") :=
    alike_bind (alike_resume _) fun _ => alike_say _ _ _
  match closed with
  | .error (.failed f) => exact alike_bind (alike_audit known known' _) fun _ => alike_throw _
  | .ok () => exact alike_ite (alike_bind (alike_audit known known' _) fun _ => ended) ended
  | .error .interrupted | .error (.unforeseen _) | .error (.exit _) => exact alike_throw _

theorem alike_hold (ports : List (Protocol × Int)) (interface : String) :
    Alike (d.hold ports interface) ((d.keeping j).hold ports interface) :=
  alike_bind (alike_attempt (alike_openAndWait known known' ports interface)) fun opened =>
    alike_closeAfter known known' opened

theorem alike_steer (verb : Verb) (users : List String) (interface : String) :
    Alike (d.steer verb users interface) ((d.keeping j).steer verb users interface) := by
  refine alike_bind (alike_say _ _ _) fun _ => ?_
  refine alike_bind (alike_lift (d.paired.steer users interface verb)) fun outcome => ?_
  refine alike_bind (alike_audit known known' _) fun _ => ?_
  exact alike_bind (alike_require _ _ _) fun _ => alike_say _ _ _

end Desk

/-! ## Calls -/

/-- Settings were loaded that say the same of the firewall, whatever they say of the journal; or they
could not be loaded for the same reason. -/
def SameFirewall : Except Config.Problem Config.InForce → Except Config.Problem Config.InForce → Prop
  | .ok c, .ok c' => c'.machine.firewall = c.machine.firewall
  | .error p, .error p' => p' = p
  | .ok _, .error _ | .error _, .ok _ => False

/-- The flags of a request that changes the firewall. -/
def CommandLine.Request.changing? : Request → Option Flags
  | .hold f _ _ | .steer f _ _ _ => some f
  | .showSettings _ | .initSettings _ _ | .checkSettings _ | .showExample => none

section Call

variable {w : Surroundings} {f : Flags} {s s' : TaskState}

/-- Two desks that differ in their journals come out of settings that differ in theirs. -/
theorem Desk.ofSettings_keeping {c c' : Config.InForce}
    (firewall : c'.machine.firewall = c.machine.firewall) :
    Desk.ofSettings w f c' = (Desk.ofSettings w f c).keeping (Desk.ofSettings w f c').journal := by
  simp only [Desk.ofSettings, Desk.keeping, firewall]

/-- What is done at the desk is alike if it is at desks that differ in their journals. -/
theorem Task.alike_atDesk {body : Desk → Task Unit}
    (alike : ∀ {d : Desk} {j : Audit.Journal}, d.journal.KnownFaults → j.KnownFaults →
      Alike (body d) (body (d.keeping j)))
    (related : SameButWarnings s.toSession s'.toSession)
    (loads : SameFirewall (Config.InForce.load s.files w.environment f.config)
      (Config.InForce.load s'.files w.environment f.config))
    (known : ∀ c, Config.InForce.load s.files w.environment f.config = .ok c →
      (Desk.ofSettings w f c).journal.KnownFaults)
    (known' : ∀ c, Config.InForce.load s'.files w.environment f.config = .ok c →
      (Desk.ofSettings w f c).journal.KnownFaults) :
    ((atDesk w f body).on s').1 = ((atDesk w f body).on s).1 ∧
      SameButWarnings ((atDesk w f body).on s).2.toSession
        ((atDesk w f body).on s').2.toSession := by
  cases hload : Config.InForce.load s.files w.environment f.config with
  | error p =>
    cases hload' : Config.InForce.load s'.files w.environment f.config with
    | ok c' => exact absurd loads (by rw [hload, hload']; exact id)
    | error p' =>
      rw [hload, hload'] at loads
      rw [on_atDesk_of_problem hload, on_atDesk_of_problem hload', show p' = p from loads]
      exact ⟨rfl, related⟩
  | ok c =>
    cases hload' : Config.InForce.load s'.files w.environment f.config with
    | error p' => exact absurd loads (by rw [hload, hload']; exact id)
    | ok c' =>
      rw [hload, hload'] at loads
      have firewall : c'.machine.firewall = c.machine.firewall := loads
      have whole := alike_bind (Desk.alike_requireRoot (d := Desk.ofSettings w f c)
        (j := (Desk.ofSettings w f c').journal)) fun _ => alike (known c hload) (known' c' hload')
      rw [← Desk.ofSettings_keeping firewall] at whole
      rw [atDesk, on_bind, on_bind, Desk.on_open hload, Desk.on_open hload', firewall]
      exact whole ⟨related.spawned, ⟨related.same.registry, rfl⟩, related.unwarned⟩

/-- Auditing never stands in the way. Let two machines have settings that say the same of the
firewall, while their journals may be kept or not, and wherever they are kept may be anything: so far
as storing an event fails, the system knows of the fault. Then the same call that changes the
firewall does the same on both, whatever the tools answer and whenever the user interrupts: it spawns
the same processes, ends in the same way, tracks the same holes, and shows the same but for warnings
of a journal. -/
theorem auditing_never_matters {files files' : Files.Tree} {words : List String}
    {r : CommandLine.Request} (reads : CommandLine.read files words = .request r)
    (reads' : CommandLine.read files' words = .request r) (changing : r.changing? = some f)
    (loads : SameFirewall (Config.InForce.load files w.environment f.config)
      (Config.InForce.load files' w.environment f.config))
    (known : ∀ c, Config.InForce.load files w.environment f.config = .ok c →
      (Desk.ofSettings w f c).journal.KnownFaults)
    (known' : ∀ c, Config.InForce.load files' w.environment f.config = .ok c →
      (Desk.ofSettings w f c).journal.KnownFaults) :
    let c := call w files words
    let c' := call w files' words
    c'.1 = c.1 ∧ c'.2.spawned = c.2.spawned ∧ c'.2.registry = c.2.registry ∧
      c'.2.ipv6 = c.2.ipv6 ∧
      c'.2.shown.filter (!·.isAuditWarning) = c.2.shown.filter (!·.isAuditWarning) := by
  intro c c'
  have hcall : ∀ {t : Files.Tree}, CommandLine.read t words = .request r → call w t words =
      (CallEnd.ofTask ((r.perform w).on { files := t }).1, ((r.perform w).on { files := t }).2) := by
    intro t hreads
    simp only [call, hreads, CommandLine.Meaning.perform]
  obtain ⟨hend, hsame⟩ : ((r.perform w).on { files := files' }).1 =
      ((r.perform w).on { files := files }).1 ∧
      SameButWarnings ((r.perform w).on { files := files }).2.toSession
        ((r.perform w).on { files := files' }).2.toSession := by
    have fresh : SameButWarnings {} {} := ⟨rfl, ⟨rfl, rfl⟩, rfl⟩
    cases r with
    | hold g ports interface =>
      obtain rfl := Option.some.inj changing
      refine Task.alike_atDesk (fun known known' => Task.alike_handled _ ?_) fresh loads known known'
      have operation := Task.alike_correlated w "hole_hold"
        (Desk.alike_hold known known' ports interface)
      exact Task.alike_ite (Task.alike_bind (Task.alike_throw _) fun _ => operation) operation
    | steer g verb users interface =>
      obtain rfl := Option.some.inj changing
      exact Task.alike_atDesk (fun known known' => Task.alike_handled _
        (Task.alike_correlated w _ (Desk.alike_steer known known' verb users interface))) fresh
        loads known known'
    | showSettings | initSettings | checkSettings | showExample => cases changing
  have hc : c = _ := hcall reads
  have hc' : c' = _ := hcall reads'
  rw [hc, hc']
  exact ⟨congrArg CallEnd.ofTask hend, hsame.spawned, hsame.same.registry, hsame.same.ipv6, hsame.unwarned⟩

/-- On one machine the journal can be written, on the other a file stands in its way. A hole is opened
and closed on both, and the second warns twice. -/
theorem blocked_journal_never_matters :
    let w := Surroundings.scripted [.silent, .refusal]
    let words := ["hole", "hold", "--tcp", "22"]
    let c := call w .withJournal words
    let c' := call w .withoutJournal words
    (c'.1 = c.1 ∧ c'.2.spawned = c.2.spawned ∧ c'.2.registry = c.2.registry ∧
      c'.2.ipv6 = c.2.ipv6 ∧
      c'.2.shown.filter (!·.isAuditWarning) = c.2.shown.filter (!·.isAuditWarning)) ∧
      c.2.shown.countP (·.isAuditWarning) = 0 ∧ c'.2.shown.countP (·.isAuditWarning) = 2 := by
  intro w words
  let f : Flags := {}
  have reads : CommandLine.read .withJournal words = .request (.hold f [(.tcp, 22)] "") := by
    decide +kernel
  have reads' : CommandLine.read .withoutJournal words = .request (.hold f [(.tcp, 22)] "") := by
    decide +kernel
  have loads : Config.InForce.load .withJournal w.environment f.config = .ok .standard :=
    loads_withJournal
  have loads' : Config.InForce.load .withoutJournal w.environment f.config = .ok .standard := by
    decide +kernel
  have known : ∀ {t : Files.Tree},
      Config.InForce.load t w.environment f.config = .ok .standard → ∀ settings,
        Config.InForce.load t w.environment f.config = .ok settings →
          (Desk.ofSettings w f settings).journal.KnownFaults := by
    rintro t hload settings hload' - e
    obtain rfl := Except.ok.inj (hload.symm.trans hload')
    exact Audit.Journal.known_store (by decide +kernel) e
  have same : SameFirewall (Config.InForce.load .withJournal w.environment f.config)
      (Config.InForce.load .withoutJournal w.environment f.config) := by
    rw [loads, loads']
    rfl
  have warned : (call w .withJournal words).2.shown.countP (·.isAuditWarning) = 0 ∧
      (call w .withoutJournal words).2.shown.countP (·.isAuditWarning) = 2 := by
    decide +kernel
  have h := auditing_never_matters reads reads' rfl same (known loads) (known loads')
  generalize call w .withJournal words = c at h warned ⊢
  generalize call w .withoutJournal words = c' at h warned ⊢
  exact ⟨h, warned⟩

end Call

end Pinhole
