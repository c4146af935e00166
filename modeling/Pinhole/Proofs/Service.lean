import Mathlib.Logic.Relation
import Pinhole.Proofs.Holes
import Pinhole.Proofs.Steering

/-!
# Serving calls

A `Call` is what the users of a toolkit may ask it for, and `Toolkit.serve` answers some calls one
after the other, whatever becomes of them.

All that calls do to a session is made of a few kinds of moves: nothing is asked, a hole that is not
tracked is opened, a tracked one is closed, or rules of other kinds are changed. `moves_serve` says
so. An invariant of sessions therefore has to be checked against `Move` only (`Moves.invariant`).
-/

namespace Pinhole

/-! ## Moves -/

/-- What a session may do at a time. -/
inductive Move (k : Toolkit) (s t : Session) : Prop
  | idle (asks : k.Asks s [] t) (same : SameHoles s t)
  | opening {h : Hole} {es : List Exchange} {r : Except Stop Bool} (valid : h.Valid)
    (new : h ∉ s.registry) (course : Accepting h.rule s.ipv6 es t.ipv6 r) (asks : k.Asks s es t)
    (tracked : t.registry = s.registry.opened h r)
  | closing {h : Hole} {es : List Exchange} {r : Except Stop Bool} (old : h ∈ s.registry)
    (course : Unaccepting h.rule s.ipv6 es r) (asks : k.Asks s es t) (flag : t.ipv6 = s.ipv6)
    (tracked : t.registry = s.registry.closed h r)
  | steering {es : List Exchange} (other : ∀ e ∈ es, e.change.rule.isAccept = false)
    (asks : k.Asks s es t) (same : SameHoles s t)

/-- What a session may do in the course of time. -/
abbrev Moves (k : Toolkit) : Session → Session → Prop := Relation.ReflTransGen (Move k)

/-- Outside of a dry run a move adds to the record of the session. -/
theorem Move.log {k : Toolkit} {s t : Session} (live : k.executor.dryRun = false)
    (h : Move k s t) : ∃ es, t.exchanges = s.exchanges ++ es := by
  cases h with
  | idle asks same => exact ⟨_, asks.exchanges live⟩
  | opening valid new course asks tracked => exact ⟨_, asks.exchanges live⟩
  | closing old course asks flag tracked => exact ⟨_, asks.exchanges live⟩
  | steering other asks same => exact ⟨_, asks.exchanges live⟩

/-- Some exchanges take place in a move. -/
theorem Move.asks {k : Toolkit} {s t : Session} (h : Move k s t) : ∃ es, k.Asks s es t := by
  cases h with
  | idle asks same => exact ⟨_, asks⟩
  | opening valid new course asks tracked => exact ⟨_, asks⟩
  | closing old course asks flag tracked => exact ⟨_, asks⟩
  | steering other asks same => exact ⟨_, asks⟩

/-- What every move preserves a run preserves. -/
theorem Moves.invariant {k : Toolkit} {s t : Session} {P : Session → Prop} (h : Moves k s t)
    (step : ∀ {s t}, P s → Move k s t → P t) (start : P s) : P t := by
  induction h with
  | refl => exact start
  | tail _ hmove ih => exact step ih hmove

/-- What moves preserve on a condition on the record, a run preserves on it too. A record that meets
the condition has to meet it from the start. -/
theorem Moves.invariant_while {k : Toolkit} {s t : Session} {P Q : Session → Prop}
    (h : Moves k s t) (live : k.executor.dryRun = false)
    (before : ∀ {s t es}, t.exchanges = s.exchanges ++ es → Q t → Q s)
    (step : ∀ {s t}, P s → Move k s t → Q t → P t) (start : P s) : Q t → P t := by
  refine h.invariant (P := fun u => Q u → P u) (fun ih hmove met => ?_) fun _ => start
  obtain ⟨es, log⟩ := hmove.log live
  exact step (ih (before log met)) hmove met

/-- Some exchanges take place in a run. -/
theorem Moves.asks {k : Toolkit} {s t : Session} (h : Moves k s t) : ∃ es, k.Asks s es t := by
  refine h.invariant (P := fun u => ∃ es, k.Asks s es u) (fun before hmove => ?_) ⟨[], .refl k s⟩
  obtain ⟨es, asks⟩ := before
  obtain ⟨fs, asks'⟩ := hmove.asks
  exact ⟨es ++ fs, asks.trans asks'⟩

/-- Every hole that is tracked may be punched. -/
theorem Move.valid {k : Toolkit} {s t : Session} (h : Move k s t)
    (valid : ∀ h ∈ s.registry, h.Valid) : ∀ h ∈ t.registry, h.Valid := by
  intro x tracked
  cases h with
  | idle asks same => exact valid x (same.registry ▸ tracked)
  | steering other asks same => exact valid x (same.registry ▸ tracked)
  | closing old course asks flag closed =>
    rw [closed, Registry.mem_closed_iff] at tracked
    exact valid x tracked.1
  | opening new_valid new course asks opened =>
    rw [opened, Registry.mem_opened_iff] at tracked
    rcases tracked with old | ⟨rfl, -⟩
    · exact valid x old
    · exact new_valid

/-- Every hole that is tracked after a run may be punched, if that was so before. -/
theorem Moves.valid {k : Toolkit} {s t : Session} (h : Moves k s t)
    (valid : ∀ h ∈ s.registry, h.Valid) : ∀ h ∈ t.registry, h.Valid :=
  h.invariant (fun valid hmove => hmove.valid valid) valid

section Kinds

variable {k : Toolkit} {s t : Session} {protocol : Protocol} {port : Value} {interface : String}

/-- Punching is a move. -/
theorem Punching.move {r : Except Stop Outcome} (h : Punching k protocol port interface s t r) :
    Move k s t := by
  cases h with
  | badPort hport asks same => exact .idle asks same
  | badInterface hport hinterface asks same => exact .idle asks same
  | already hport hprotocol hinterface valid old asks same => exact .idle asks same
  | tried hport hprotocol hinterface valid new course asks tracked =>
    exact .opening valid new course asks tracked

/-- Plugging is a move. -/
theorem Plugging.move {r : Except Stop Outcome} (h : Plugging k protocol port interface s t r) :
    Move k s t := by
  cases h with
  | badPort hport asks same => exact .idle asks same
  | unknown hport hprotocol hinterface new asks same => exact .idle asks same
  | tried hport hprotocol hinterface old course asks flag tracked =>
    exact .closing old course asks flag tracked

/-- The changes of steps are about rules that open no hole. -/
theorem Toolkit.isAccept_of_mem_changes {verb : Verb} {steps : List SteeringStep} {c : Change}
    (h : c ∈ k.changes verb steps) : c.rule.isAccept = false := by
  obtain ⟨step, -, hc⟩ := List.mem_flatMap.1 h
  obtain ⟨tool, -, rfl⟩ := List.mem_map.1 hc
  cases step <;> rfl

/-- Installing steps changes rules that open no hole. -/
theorem Installing.isAccept {installed steps : List SteeringStep} {es : List Exchange}
    {r : Except Stop Outcome} (h : Installing k installed steps es r) {e : Exchange}
    (he : e ∈ es) : e.change.rule.isAccept = false := by
  obtain ⟨_, _, hc⟩ := h.change_mem he
  exact Toolkit.isAccept_of_mem_changes hc

/-- Steering is a move. -/
theorem Steering.move {users : List String} {verb : Verb} {r : Except Stop Outcome}
    (h : Steering k users interface s t verb r) : Move k s t := by
  cases h with
  | badInterface hinterface asks same => exact .idle asks same
  | badUser hinterface huser asks same => exact .idle asks same
  | setUp hinterface husers course asks same =>
    exact .steering (fun e he => course.isAccept he) asks same
  | tearDown hinterface course asks same =>
    exact .steering (fun e he => Toolkit.isAccept_of_mem_changes (course.change_mem he)) asks same

end Kinds

/-! ## Plugging all holes -/

/-- What plugging some holes in turn comes to. Only an interrupt keeps a hole from its turn. -/
inductive PluggingEach (k : Toolkit) : List Hole → Session → Session → Except Stop Unit → Prop
  | nil {s : Session} : PluggingEach k [] s s (.ok ())
  | cons {h : Hole} {hs : List Hole} {s t u : Session} {o : Outcome} {r : Except Stop Unit}
    (first : Plugging k h.protocol (.int h.port) h.interface s t (.ok o))
    (rest : PluggingEach k hs t u r) : PluggingEach k (h :: hs) s u r
  | stopped {h : Hole} {hs : List Hole} {s t : Session} {e : Stop}
    (first : Plugging k h.protocol (.int h.port) h.interface s t (.error e)) :
    PluggingEach k (h :: hs) s t (.error e)

/-- Plugging some holes deletes rules of theirs, and nothing else is asked. -/
theorem PluggingEach.log {k : Toolkit} {hs : List Hole} {s t : Session} {r : Except Stop Unit}
    (live : k.executor.dryRun = false) (h : PluggingEach k hs s t r) :
    ∃ es, t.exchanges = s.exchanges ++ es ∧ t.ipv6 = s.ipv6 ∧
      ∀ e ∈ es, ∃ h ∈ hs, ∃ f, e.change = .inFilter f .delete h.rule := by
  induction h with
  | nil => exact ⟨[], by simp, rfl, by simp⟩
  | @cons h hs s t u o r first rest ih =>
    obtain ⟨es, log, flag, about⟩ := first.log live
    obtain ⟨fs, log', flag', about'⟩ := ih
    refine ⟨es ++ fs, by rw [log', log, List.append_assoc], flag'.trans flag, fun e he => ?_⟩
    rcases List.mem_append.1 he with he | he
    · exact ⟨h, List.mem_cons_self, about e he⟩
    · obtain ⟨g, hg, about⟩ := about' e he
      exact ⟨g, List.mem_cons_of_mem h hg, about⟩
  | @stopped h hs s t e first =>
    obtain ⟨es, log, flag, about⟩ := first.log live
    exact ⟨es, log, flag, fun e he => ⟨h, List.mem_cons_self, about e he⟩⟩

/-- Only an interrupt stops the plugging of some holes. -/
theorem PluggingEach.error_eq {k : Toolkit} {hs : List Hole} {s t : Session} {x : Stop}
    (h : PluggingEach k hs s t (.error x)) : x = .interrupted := by
  generalize hr : (Except.error x : Except Stop Unit) = r at h
  induction h with
  | nil => cases hr
  | cons first rest ih => exact ih hr
  | stopped first =>
    cases hr
    exact first.error_eq

/-- Plugging some holes is a run of moves. -/
theorem PluggingEach.moves {k : Toolkit} {hs : List Hole} {s t : Session} {r : Except Stop Unit}
    (h : PluggingEach k hs s t r) : Moves k s t := by
  induction h with
  | nil => exact .refl
  | cons first rest ih => exact .head first.move ih
  | stopped first => exact .single first.move

/-- What has been plugged with the given result ends, by what is still tracked. -/
def Registry.pluggedAll (g : Registry) : Except Stop Unit → Except Stop Unit
  | .ok () => if g.holes.isEmpty then .ok () else .error (.failed (Toolkit.stillOpen g.holes))
  | .error e => .error e

/-- Plugging all holes succeeds exactly when none is left. -/
theorem Registry.pluggedAll_eq_ok_iff (g : Registry) :
    g.pluggedAll (.ok ()) = .ok () ↔ g.holes = [] := by
  cases h : g.holes <;> simp [pluggedAll, h]

theorem Registry.pluggedAll_of_ne {g : Registry} (left : g.holes ≠ []) :
    g.pluggedAll (.ok ()) = .error (.failed (Toolkit.stillOpen g.holes)) := by
  simp [pluggedAll, left]

namespace Toolkit

variable (k : Toolkit)

/-- Plugging each of some holes comes to one of the things of `PluggingEach`. -/
theorem on_plugEach (hs : List Hole) (s : Session) :
    ∃ r t, (k.plugEach hs).on s = (r, t) ∧ PluggingEach k hs s t r := by
  induction hs generalizing s with
  | nil => exact ⟨_, s, rfl, .nil⟩
  | cons h hs ih =>
    obtain ⟨r, t, ht, first⟩ := k.on_plug h.protocol (.int h.port) h.interface s
    simp only [plugEach, Action.on_bind, ht]
    cases r with
    | error e => exact ⟨_, t, rfl, .stopped first⟩
    | ok o =>
      obtain ⟨q, u, hu, rest⟩ := ih t
      exact ⟨q, u, hu, .cons first rest⟩

/-- Plugging all holes plugs each of them in turn and fails if any is left. -/
theorem on_plugAll (s : Session) :
    ∃ r t, k.plugAll.on s = (t.registry.pluggedAll r, t) ∧
      PluggingEach k s.registry.holes s t r := by
  obtain ⟨r, t, ht, course⟩ := k.on_plugEach s.registry.holes s
  refine ⟨r, t, ?_, course⟩
  simp only [plugAll, Action.on_bind, Action.on_get, ht]
  cases r with
  | error e => rfl
  | ok u =>
    simp only [Registry.pluggedAll]
    cases t.registry.holes.isEmpty <;> rfl

end Toolkit

/-! ## Calls -/

/-- What the users of a toolkit may ask it for. -/
inductive Call
  | punch (protocol : Protocol) (port : Value) (interface : String)
  | plug (protocol : Protocol) (port : Value) (interface : String)
  | plugAll
  | steer (verb : Verb) (users : List String) (interface : String)

namespace Toolkit

/-- The session after a call. -/
def perform (k : Toolkit) (s : Session) : Call → Session
  | .punch protocol port interface => ((k.punch protocol port interface).on s).2
  | .plug protocol port interface => ((k.plug protocol port interface).on s).2
  | .plugAll => (k.plugAll.on s).2
  | .steer verb users interface => ((k.steer users interface verb).on s).2

/-- The session after some calls. -/
def serve (k : Toolkit) (calls : List Call) (s : Session) : Session := calls.foldl k.perform s

/-- The last call is answered in the session that the others lead to. -/
theorem serve_concat (k : Toolkit) (calls : List Call) (c : Call) (s : Session) :
    k.serve (calls ++ [c]) s = k.perform (k.serve calls s) c := List.foldl_append

/-- What every course of a call leads to is true after the call. -/
theorem perform_of_courses (k : Toolkit) {s : Session} {P : Session → Prop}
    (punching : ∀ {protocol port interface t r},
      Punching k protocol port interface s t r → P t)
    (plugging : ∀ {protocol port interface t r},
      Plugging k protocol port interface s t r → P t)
    (pluggingAll : ∀ {t r}, PluggingEach k s.registry.holes s t r → P t)
    (steering : ∀ {users interface t verb r}, Steering k users interface s t verb r → P t)
    (c : Call) : P (k.perform s c) := by
  cases c with
  | punch protocol port interface =>
    obtain ⟨r, t, ht, course⟩ := k.on_punch protocol port interface s
    rw [perform, ht]
    exact punching course
  | plug protocol port interface =>
    obtain ⟨r, t, ht, course⟩ := k.on_plug protocol port interface s
    rw [perform, ht]
    exact plugging course
  | plugAll =>
    obtain ⟨r, t, ht, course⟩ := k.on_plugAll s
    rw [perform, ht]
    exact pluggingAll course
  | steer verb users interface =>
    obtain ⟨r, t, ht, course⟩ := k.on_steer users interface verb s
    rw [perform, ht]
    exact steering course

/-- A call is a run of moves. -/
theorem moves_perform (k : Toolkit) (s : Session) (c : Call) : Moves k s (k.perform s c) :=
  k.perform_of_courses (fun course => .single course.move) (fun course => .single course.move)
    (fun course => course.moves) (fun course => .single course.move) c

/-- Serving calls is a run of moves. -/
theorem moves_serve (k : Toolkit) (calls : List Call) (s : Session) :
    Moves k s (k.serve calls s) := by
  induction calls generalizing s with
  | nil => exact .refl
  | cons c calls ih => exact (k.moves_perform s c).trans (ih (k.perform s c))

end Toolkit

/-! ## Systems that follow a script -/

/-- The system that gives some answers one after the other, and then says that every command
works. -/
def Responder.scripted (answers : List Answer) : Responder :=
  fun ps _ => answers.getD ps.length .silent

/-- The answer of a tool that refuses and says nothing. -/
def Answer.refusal : Answer := .exited 1 "" ""

/-- The toolkit with the settings that are in force when none are given, on a system that follows a
script. -/
def Toolkit.scripted (answers : List Answer) : Toolkit :=
  .ofSettings { console := {}, respond := .scripted answers } {}

end Pinhole
