import Pinhole.Proofs.Hold

/-!
# Failures that reach the user

A failure that ends what a call does is reported: its message goes to the error stream, its details
and its hint follow, and the process ends with its exit code. `Request.work` is what a request does
with no failure reported, and `reported` is what reporting makes of the end of a task.

There is one gap. Where the firewall is to be changed the settings are loaded before anything is
handled, so a failure to load them escapes. `failure_ends_call` says that nothing else does.
-/

namespace Pinhole

/-- No failure escapes from a task whose failures are reported. -/
theorem reported_not_escaped (p : Except Halt Unit × TaskState) (f : Failure) :
    CallEnd.ofTask (reported p).1 ≠ .escaped (.failed f) := by
  rcases p with ⟨q, t⟩
  match q with
  | .error (.failed e) => exact nofun
  | .ok () => exact nofun
  | .error .interrupted => exact nofun
  | .error (.unforeseen e) => exact nofun
  | .error (.exit code) => exact nofun

namespace Task

/-- Handling the rest of a task is as good as handling the whole of it if the first part does not
fail. -/
theorem on_bind_handled {α : Type} {x : Task α} {s : TaskState}
    (h : ∀ f, (x.on s).1 ≠ .error (.failed f)) (c : α → Console) (g : α → Task Unit) :
    (x >>= fun a => handled (c a) (g a)).on s = reported ((x >>= g).on s) := by
  rw [on_bind, on_bind]
  rcases hx : x.on s with ⟨q, t⟩
  cases q with
  | ok a => exact on_handled_reported (c a) (g a) t
  | error e =>
    refine (reported_of_not_failed fun f hf => h f ?_).symm
    rw [hx]
    exact congrArg Except.error (Except.error.inj hf)

/-! ## The work of a request -/

/-- Does something at the desk, once that is set up and the caller is known to be allowed. -/
def atDesk (w : Surroundings) (f : Flags) (body : Desk → Task Unit) : Task Unit := do
  let d ← Desk.open w f
  d.requireRoot
  body d

/-- Who is not root is sent away with an exit code, which is no failure. -/
theorem requireRoot_not_failed (d : Desk) (s : TaskState) (f : Failure) :
    (d.requireRoot.on s).1 ≠ .error (.failed f) := by
  rw [Desk.requireRoot]
  split
  · rw [on_bind, on_say_visible]
    simp only [on_bind, on_say_visible, on_exit]
    simp
  · simp

variable {w : Surroundings} {f : Flags} {s : TaskState}

/-- Settings that cannot be loaded end what was to be done at the desk before it begins. -/
theorem on_atDesk_of_problem {p : Config.Problem}
    (loads : Config.InForce.load s.files w.environment f.config = .error p)
    (body : Desk → Task Unit) : (atDesk w f body).on s = (.error (.ofProblem p), s) := by
  simp only [atDesk, Desk.open, on_bind, on_get, loads, loaded, on_throw]

/-- Once the settings are loaded, handling what is done at the desk is as good as handling all. -/
theorem on_atDesk_handled {settings : Config.InForce}
    (loads : Config.InForce.load s.files w.environment f.config = .ok settings)
    (body : Desk → Task Unit) :
    (atDesk w f fun d => handled d.console (body d)).on s = reported ((atDesk w f body).on s) := by
  rw [atDesk, atDesk, on_bind, on_bind, Desk.on_open loads]
  exact on_bind_handled (requireRoot_not_failed _ _) (fun _ => _) (fun _ => body _)

/-- Finding the file to start does not fail. -/
theorem initPath_not_failed (e : Failure) : ((initPath w f).on s).1 ≠ .error (.failed e) := by
  rw [initPath]
  split
  · exact nofun
  · simp only [on_bind, on_get]
    cases Config.Overrides.read s.files w.environment with
    | ok overrides => exact nofun
    | error u => exact nofun

end Task

namespace CommandLine.Request

/-- What a request does, with no failure reported. -/
def work (w : Surroundings) : Request → Task Unit
  | .hold f ports interface => Task.atDesk w f fun d => do
    if ports.isEmpty then
      throw (.failed noPorts)
    Task.correlated w "hole_hold" (d.hold ports interface)
  | .steer f verb users interface => Task.atDesk w f fun d =>
    Task.correlated w ("vpn_" ++ steeringName verb) (d.steer verb users interface)
  | .showSettings f => do
    let c ← Task.settings w f
    f.console.show (.table ("fwd settings (" ++ c.path.text ++ ")") (← Task.foreseen c.rows))
    if f.isVerbose then
      f.console.show (.listing c.path.text (← Task.foreseen c.machine.text))
  | .initSettings f force => do
    let path ← Task.initPath w f
    let s ← get
    let (made, files) := Config.init s.files path force
    set { s with files }
    Task.loaded made
    f.console.say .success ("Configuration file created: " ++ path.text)
  | .checkSettings f => do
    let c ← Task.settings w f
    f.console.say .success ("Configuration is valid: " ++ c.path.text)
    let found ← Task.loaded (Config.fileExists (← get).files c.path)
    for warning in c.warnings found do
      f.console.say .warn warning
  | .showExample => Task.showExample

/-- The settings are loaded before failures are handled, and this fails. -/
def Escapes (w : Surroundings) (files : Files.Tree) (e : Failure) : Request → Prop
  | .hold f _ _ | .steer f _ _ _ =>
    Config.InForce.load files w.environment f.config = .error (.failed e)
  | _ => False

variable {w : Surroundings} {s : TaskState}

/-- At most one failure escapes. -/
theorem Escapes.unique {files : Files.Tree} {r : Request} {e e' : Failure}
    (h : r.Escapes w files e) (h' : r.Escapes w files e') : e = e' := by
  cases r with
  | hold f ports interface => exact Config.Problem.failed.inj (Except.error.inj (h.symm.trans h'))
  | steer f verb users interface =>
    exact Config.Problem.failed.inj (Except.error.inj (h.symm.trans h'))
  | _ => cases h

/-- What is handled at the desk comes to the same with its failures reported, unless the settings
cannot be loaded. -/
theorem on_atDesk (f : Flags) (body : Desk → Task Unit) :
    (∃ e, Config.InForce.load s.files w.environment f.config = .error (.failed e) ∧
      (Task.atDesk w f fun d => Task.handled d.console (body d)).on s = (.error (.failed e), s) ∧
      (Task.atDesk w f body).on s = (.error (.failed e), s)) ∨
    (∀ e, Config.InForce.load s.files w.environment f.config ≠ .error (.failed e)) ∧
      (Task.atDesk w f fun d => Task.handled d.console (body d)).on s =
        reported ((Task.atDesk w f body).on s) := by
  cases loads : Config.InForce.load s.files w.environment f.config with
  | ok settings => exact Or.inr ⟨nofun, Task.on_atDesk_handled loads body⟩
  | error p =>
    rw [Task.on_atDesk_of_problem loads, Task.on_atDesk_of_problem loads]
    cases p with
    | failed e => exact Or.inl ⟨e, rfl, rfl, rfl⟩
    | unforeseen u => exact Or.inr ⟨nofun, rfl⟩

/-- Doing what is requested comes to the work of the request with its failures reported, unless the
settings are loaded before failures are handled and this fails. -/
theorem on_perform (r : Request) (s : TaskState) :
    (∃ e, r.Escapes w s.files e ∧ (r.perform w).on s = (.error (.failed e), s) ∧
      (r.work w).on s = (.error (.failed e), s)) ∨
    (∀ e, ¬ r.Escapes w s.files e) ∧ (r.perform w).on s = reported ((r.work w).on s) := by
  cases r with
  | hold f ports interface => exact on_atDesk f _
  | steer f verb users interface => exact on_atDesk f _
  | showSettings f => exact Or.inr ⟨nofun, Task.on_handled_reported _ _ s⟩
  | initSettings f force =>
    exact Or.inr ⟨nofun, Task.on_bind_handled Task.initPath_not_failed (fun _ => f.console) _⟩
  | checkSettings f => exact Or.inr ⟨nofun, Task.on_handled_reported _ _ s⟩
  | showExample => exact Or.inr ⟨nofun, rfl⟩

end CommandLine.Request

/-- A call whose work ends with a failure reports that failure and ends with its exit code, and no
other call reports one. The one exception are settings that cannot be loaded for a change of the
firewall: this failure escapes, nothing is said, and no other failure ever escapes. -/
theorem failure_ends_call {w : Surroundings} {files : Files.Tree} {words : List String}
    {r : CommandLine.Request} (reads : CommandLine.read files words = .request r) :
    let p := (r.work w).on { files }
    let c := call w files words
    (∀ e, r.Escapes w files e → p.1 = .error (.failed e) ∧ c = (.escaped (.failed e), { files })) ∧
      (∀ e, c.1 = .escaped (.failed e) → r.Escapes w files e) ∧
      (∀ e, p.1 = .error (.failed e) → ¬ r.Escapes w files e →
        c = (.exit e.exitCode, { p.2 with shown := p.2.shown ++ e.report })) ∧
      ((∀ e, p.1 ≠ .error (.failed e)) → c = (.ofTask p.1, p.2)) := by
  intro p c
  have hcall : c = (CallEnd.ofTask ((r.perform w).on { files }).1, ((r.perform w).on { files }).2) := by
    simp only [c, call, reads, CommandLine.Meaning.perform]
  -- Either the settings cannot be loaded, or all failures of the work are reported.
  rcases r.on_perform (w := w) { files } with ⟨e, escapes, hperform, hwork⟩ | ⟨kept, hperform⟩
  · rw [hperform] at hcall
    have hp : p = (.error (.failed e), { files }) := hwork
    refine ⟨fun e' escapes' => ?_, fun e' he' => ?_, fun e' he' kept => ?_, fun none => ?_⟩
    · obtain rfl : e = e' := escapes.unique escapes'
      exact ⟨congrArg Prod.fst hp, hcall⟩
    · rw [hcall] at he'
      cases he'
      exact escapes
    · rw [hp] at he'
      cases he'
      exact absurd escapes kept
    · exact absurd (congrArg Prod.fst hp) (none e)
  · have hc : c = (CallEnd.ofTask (reported p).1, (reported p).2) := by rw [hcall, hperform]
    refine ⟨fun e escapes => absurd escapes (kept e), fun e he => ?_, fun e he _ => ?_,
      fun none => ?_⟩
    · rw [hc] at he
      exact absurd he (reported_not_escaped p e)
    · rw [hc]
      rcases p with ⟨q, t⟩
      obtain rfl : q = .error (.failed e) := he
      rfl
    · rw [hc, reported_of_not_failed none]

/-- A hole that stays open ends a hold with an exit code of its own, and with a message that says
so. -/
theorem failure_ends_hold_of_unclosed_hole :
    let w := Surroundings.scripted [.silent, .silent, .refusal, .refusal]
    let words := ["hole", "hold", "--tcp", "22"]
    let r : CommandLine.Request := .hold {} [(.tcp, 22)] ""
    let e := Toolkit.stillOpen [⟨.tcp, 22, ""⟩]
    CommandLine.read .withoutJournal words = .request r ∧
      ((r.work w).on { files := .withoutJournal }).1 = .error (.failed e) ∧
      (call w .withoutJournal words).1 = .exit 20 ∧
      .message .error e.message ∈ (call w .withoutJournal words).2.shown := by
  intro w words r e
  have reads : CommandLine.read .withoutJournal words = .request r := by decide +kernel
  have fails : ((r.work w).on { files := .withoutJournal }).1 = .error (.failed e) := by
    decide +kernel
  have kept : ¬ r.Escapes w .withoutJournal e := by
    have loads : (Config.InForce.load .withoutJournal [] none).isOk = true := by decide +kernel
    rintro (escapes : Config.InForce.load .withoutJournal [] none = .error (.failed e))
    rw [escapes] at loads
    cases loads
  have hcall := (failure_ends_call (w := w) reads).2.2.1 e fails kept
  refine ⟨reads, fails, ?_, ?_⟩
  · exact congrArg Prod.fst hcall
  · rw [hcall]
    exact List.mem_append_right _ List.mem_cons_self

/-- The settings must not be read, and steering is asked for. The failure to load them escapes: the
call ends with the exit code of an unforeseen problem, and says nothing. -/
theorem unreadable_settings_escape :
    let files : Files.Tree :=
      { entries := [(["c.yaml"], .file .empty)], locked := [["c.yaml"]] }
    let c := call (.scripted []) files ["vpn", "up", "alice", "-i", "tun0", "-c", "c.yaml"]
    let e : Failure := .configuration "Cannot read configuration file: c.yaml"
      (some "Check file permissions or run with sudo")
    c.1 = .escaped (.failed e) ∧ c.1.code ≠ e.exitCode ∧ c.2.shown = [] := by
  decide +kernel

end Pinhole
