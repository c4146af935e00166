import Pinhole.Proofs.Exchange
import Pinhole.Task.Desk

/-!
# What tasks leave alone

Besides acting in its session a task shows things, writes events to the journal and reports
failures. None of this asks a tool for anything or changes what is tracked: the session before and
the session after are `Quiet`.
-/

namespace Pinhole

/-- Between two sessions nothing was asked of a tool, and the same holes are tracked. -/
structure Quiet (s t : Session) : Prop where
  spawned : t.spawned = s.spawned
  same : SameHoles s t

namespace Quiet

variable {s t u : Session}

theorem refl (s : Session) : Quiet s s := ⟨rfl, rfl, rfl⟩

theorem trans (h : Quiet s t) (h' : Quiet t u) : Quiet s u :=
  ⟨h'.spawned.trans h.spawned, h.same.trans h'.same⟩

theorem exchanges (h : Quiet s t) : t.exchanges = s.exchanges := by
  rw [Session.exchanges, h.spawned]
  rfl

end Quiet

/-! ## Showing and reporting -/

/-- What is shown of a failure. -/
def Failure.report (f : Failure) : List Item :=
  .message .error f.message :: f.details.map (fun detail => .line ("  [dim]" ++ detail ++ "[/dim]")) ++
    ((f.hint.filter (!·.isEmpty)).map (.message .hint)).toList

/-- The end of a task whose failures are reported. -/
def reported : Except Halt Unit × TaskState → Except Halt Unit × TaskState
  | (.error (.failed f), t) => (.error (.exit f.exitCode), { t with shown := t.shown ++ f.report })
  | p => p

/-- How a task ends whose failures are reported. -/
def Halt.reported : Except Halt Unit → Except Halt Unit
  | .error (.failed f) => .error (.exit f.exitCode)
  | r => r

/-- Reporting a failure changes nothing but what is shown. -/
theorem reported_eq (r : Except Halt Unit) (t : TaskState) :
    ∃ shown, reported (r, t) = (Halt.reported r, { t with shown := shown }) := by
  cases r with
  | ok u => exact ⟨t.shown, rfl⟩
  | error h => cases h <;> exact ⟨_, rfl⟩

/-- An end that is no failure stays what it is. -/
theorem reported_of_not_failed {p : Except Halt Unit × TaskState}
    (h : ∀ f, p.1 ≠ .error (.failed f)) : reported p = p := by
  unfold reported
  split
  · exact absurd rfl (h _)
  · rfl

/-- What belongs to every verbosity becomes visible at each. -/
theorem Console.visible_of_quiet (c : Console) (item : Item) (least : item.least = .quiet)
    (done : ∀ text, item ≠ .dryRun text) : c.visible item = [item] := by
  have hshows : c.shows item = true := by
    cases item with
    | dryRun text => exact absurd rfl (done text)
    | _ => simp only [shows, least, Verbosity.rank, Nat.zero_le, decide_true]
  rw [visible, hshows]
  rfl

namespace Task

/-- An action in a task does to the session of the task what it does to any. -/
theorem on_lift {α : Type} (x : Action α) (s : TaskState) :
    (liftM x : Task α).on s =
      ((x.on s.toSession).1.mapError Halt.ofStop, { s with toSession := (x.on s.toSession).2 }) := by
  change (act x).on s = _
  rw [on_act]
  rcases x.on s.toSession with ⟨r, t⟩
  cases r <;> rfl

/-- Showing an item in a task adds what becomes visible of it. -/
theorem on_show_visible (c : Console) (item : Item) (s : TaskState) :
    (liftM (c.show item) : Task Unit).on s =
      (.ok (), { s with shown := s.shown ++ c.visible item }) := by
  rw [on_lift, Console.on_show_visible]
  rfl

theorem on_say_visible (c : Console) (kind : MessageKind) (text : String) (s : TaskState) :
    (liftM (c.say kind text) : Task Unit).on s =
      (.ok (), { s with shown := s.shown ++ c.visible (.message kind text) }) :=
  on_show_visible c _ s

/-- Showing an item is quiet. -/
theorem on_show (c : Console) (item : Item) (s : TaskState) :
    ∃ t, (liftM (c.show item) : Task Unit).on s = (.ok (), t) ∧
      Quiet s.toSession t.toSession :=
  ⟨_, on_show_visible c item s, rfl, rfl, rfl⟩

/-- Saying something is quiet. -/
theorem on_say (c : Console) (kind : MessageKind) (text : String) (s : TaskState) :
    ∃ t, (liftM (c.say kind text) : Task Unit).on s = (.ok (), t) ∧
      Quiet s.toSession t.toSession :=
  on_show c (.message kind text) s

/-- Showing the details of a failure adds a line for each. -/
theorem on_showDetails (c : Console) (details : List String) (s : TaskState) :
    (forIn details PUnit.unit fun detail _ => do
        (liftM (c.show (.line ("  [dim]" ++ detail ++ "[/dim]"))) : Task Unit)
        pure (ForInStep.yield PUnit.unit) : Task PUnit).on s =
      (.ok PUnit.unit, { s with
        shown := s.shown ++ details.map fun detail => .line ("  [dim]" ++ detail ++ "[/dim]") }) := by
  induction details generalizing s with
  | nil =>
    rw [List.map_nil, List.append_nil]
    rfl
  | cons detail details ih =>
    have hline := c.visible_of_quiet (.line ("  [dim]" ++ detail ++ "[/dim]")) rfl (by simp)
    rw [List.forIn_cons, on_bind, on_bind, on_show_visible, hline]
    refine (ih _).trans ?_
    rw [List.map_cons, List.append_assoc]
    rfl

/-- Reporting a failure shows it and ends the task with its exit code. -/
theorem on_report_shown (c : Console) (f : Failure) (s : TaskState) :
    (report c f).on s =
      (.error (.exit f.exitCode), { s with shown := s.shown ++ f.report }) := by
  have herror := c.visible_of_quiet (.message .error f.message) rfl (by simp)
  rw [report, on_bind, on_say_visible, herror]
  simp only
  rw [on_bind, on_showDetails]
  simp only [Failure.report]
  cases f.hint.filter (!·.isEmpty) with
  | none =>
    simp only [on_exit, Option.map_none, Option.toList_none, List.append_assoc, List.append_nil,
      List.singleton_append]
  | some hint =>
    have hhint := c.visible_of_quiet (.message .hint hint) rfl (by simp)
    simp only [on_bind, on_say_visible, on_exit, hhint, Option.map_some, Option.toList_some,
      List.append_assoc, List.cons_append, List.nil_append]

/-- A handled task ends as the task does when its failures are reported. -/
theorem on_handled_reported (c : Console) (x : Task Unit) (s : TaskState) :
    (handled c x).on s = reported (x.on s) := by
  rw [handled, on_bind, on_attempt]
  rcases x.on s with ⟨q, t⟩
  cases q with
  | ok u => rfl
  | error h =>
    cases h with
    | failed f => exact on_report_shown c f t
    | interrupted => rfl
    | unforeseen e => rfl
    | exit code => rfl

end Task

namespace Desk

/-- Settings that can be loaded set up the desk, and say whether the secondary filter has to work
from the start. -/
theorem on_open {w : Surroundings} {f : Flags} {settings : Config.InForce} {s : TaskState}
    (loads : Config.InForce.load s.files w.environment f.config = .ok settings) :
    (Desk.open w f).on s = (.ok (ofSettings w f settings),
      { s with ipv6 := settings.machine.firewall.ipv6AlwaysEnabled }) := by
  simp only [Desk.open, Task.on_bind, Task.on_get, loads, Task.loaded, Task.on_pure,
    Task.on_modify]

/-- Root may go on, and so may everyone on a dry run. -/
theorem on_requireRoot {d : Desk} (allowed : d.surroundings.root = true ∨ d.flags.dryRun = true)
    (s : TaskState) : d.requireRoot.on s = (.ok (), s) := by
  rw [requireRoot]
  rcases allowed with h | h <;> simp [h]

/-- Storing an event is quiet. It ends the task only when the system knows nothing of the fault. -/
theorem on_audit (d : Desk) (e : Audit.Event) (s : TaskState) :
    ∃ r t, (d.audit e).on s = (r, t) ∧ Quiet s.toSession t.toSession ∧
      (r = .ok () ∨ ∃ u, r = .error (.unforeseen u)) := by
  rcases hlog : d.journal.log (e.under s.trail) s.files with ⟨stored, files⟩
  rw [audit, Task.on_bind, Task.on_get]
  simp only [hlog]
  match stored with
  | .ok none => exact ⟨_, { s with files := files }, rfl, .refl _, Or.inl rfl⟩
  | .error f => exact ⟨_, { s with files := files }, rfl, .refl _, Or.inr ⟨_, rfl⟩⟩
  | .ok (some text) =>
    obtain ⟨t, ht, quiet⟩ := Task.on_say d.console .warn text { s with files := files }
    exact ⟨_, t, ht, quiet, Or.inl rfl⟩

/-- Requiring an outcome changes nothing. It ends the task exactly when the outcome is no
success. -/
theorem on_require (o : Outcome) (message hint : String) (s : TaskState) :
    (require o message hint).on s =
      (match o.failure? message (some hint) with
        | none => .ok ()
        | some f => .error (.failed f), s) := by
  rw [require]
  cases o.failure? message (some hint) <;> rfl

end Desk

end Pinhole
