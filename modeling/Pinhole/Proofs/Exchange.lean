import Pinhole.Firewall.Toolkit

/-!
# Exchanges with the tools

Everything that is done to the rules is done by asking a tool for a change and reading its answer.
An `Exchange` is one such question with its answer, and `Toolkit.Asks` says that between two
sessions exactly some exchanges took place, each answered as the system answers at that point.

`on_apply` is the one place where the running of commands is opened: asking for a change spawns one
process, touches neither the tracked holes nor what is known of the secondary filter, and gives back
what the answer says.
-/

namespace Pinhole

/-! ## Answers -/

/-- What an answer means for the one who asked. -/
inductive Reply
  | done
  | refused
  /-- The user interrupted the program before the command could take effect. -/
  | cut
  deriving DecidableEq, Repr

/-- What an answer means. -/
def Answer.reply : Answer → Reply
  | .interrupted => .cut
  | a => if a.isSuccess then .done else .refused

/-- What the one who asked goes on with. -/
def Reply.result : Reply → Except Stop Bool
  | .done => .ok true
  | .refused => .ok false
  | .cut => .error .interrupted

/-- Without an interrupt one goes on with whether the change was made. -/
theorem Reply.result_of_ne_cut {r : Reply} (h : r ≠ .cut) : r.result = .ok (r = .done) := by
  cases r with
  | done => rfl
  | refused => rfl
  | cut => exact absurd rfl h

/-- An answer that is no interrupt says whether the command took effect. -/
theorem Answer.reply_of_ne {a : Answer} (h : a ≠ .interrupted) :
    a.reply = if a.isSuccess then .done else .refused := by
  unfold reply
  split
  · exact absurd rfl h
  · rfl

theorem Answer.reply_eq_done_iff (a : Answer) : a.reply = .done ↔ a.isSuccess = true := by
  by_cases h : a = .interrupted
  · simp [h, reply, isSuccess]
  · simp [reply_of_ne h]

/-- Only an interrupt cuts an exchange short. -/
theorem Answer.reply_ne_cut {a : Answer} (h : a ≠ .interrupted) : a.reply ≠ .cut := by
  rw [reply_of_ne h]
  split <;> exact nofun

/-- Whether a rule opens a hole. -/
def Rule.isAccept : Rule → Bool
  | .accept .. => true
  | _ => false

/-- A change of a rule in a packet filter. -/
def Change.inFilter (f : Filter) (verb : Verb) (rule : Rule) : Change := ⟨.filter f, verb, rule⟩

@[simp] theorem Change.inFilter_inj {f g : Filter} {v w : Verb} {q r : Rule} :
    Change.inFilter f v q = .inFilter g w r ↔ f = g ∧ v = w ∧ q = r := by
  simp [Change.inFilter]

/-- A change that a tool was asked for, and its answer. -/
structure Exchange where
  change : Change
  answer : Answer
  deriving DecidableEq, Repr

/-! ## What a session has been through -/

/-- The exchange that a process was, unless it ran something else. -/
def Spawned.exchange? (p : Spawned) : Option Exchange :=
  p.command.change?.map fun c => ⟨c, p.answer⟩

/-- The exchanges of a session so far, the oldest first. -/
def Session.exchanges (s : Session) : List Exchange := s.spawned.filterMap Spawned.exchange?

/-- The last reply to a change, if it was asked for. -/
def lastReply (es : List Exchange) (c : Change) : Option Reply :=
  ((es.filter (·.change = c)).map (·.answer.reply)).getLast?

/-- The replies that are in later exchanges go before those that are in earlier ones. -/
theorem lastReply_append (es fs : List Exchange) (c : Change) :
    lastReply (es ++ fs) c = (lastReply fs c).or (lastReply es c) := by
  rw [lastReply, List.filter_append, List.map_append, List.getLast?_append]
  rfl

theorem lastReply_eq_none {es : List Exchange} {c : Change} (h : ∀ e ∈ es, e.change ≠ c) :
    lastReply es c = none := by
  have hnil : es.filter (·.change = c) = [] := List.filter_eq_nil_iff.2 fun e he => by simp [h e he]
  rw [lastReply, hnil]
  rfl

/-- The exchanges about a rule. -/
def about (r : Rule) (es : List Exchange) : List Exchange := es.filter (·.change.rule = r)

theorem about_append (r : Rule) (es fs : List Exchange) :
    about r (es ++ fs) = about r es ++ about r fs := List.filter_append es fs

/-- Exchanges about other rules add nothing to those about a rule. -/
theorem about_append_of_ne {r : Rule} {fs : List Exchange} (h : ∀ e ∈ fs, e.change.rule ≠ r)
    (es : List Exchange) : about r (es ++ fs) = about r es := by
  have hnil : about r fs = [] := List.filter_eq_nil_iff.2 fun e he => by simp [h e he]
  rw [about_append, hnil, List.append_nil]

theorem about_eq_self {r : Rule} {es : List Exchange} (h : ∀ e ∈ es, e.change.rule = r) :
    about r es = es := List.filter_eq_self.2 fun e he => by simp [h e he]

/-- A change was asked for and got the given reply. -/
def Answered (es : List Exchange) (c : Change) (r : Reply) : Prop :=
  ∃ e ∈ es, e.change = c ∧ e.answer.reply = r

theorem answered_nil (c : Change) (r : Reply) : ¬ Answered [] c r := by simp [Answered]

theorem answered_cons {e : Exchange} {es : List Exchange} {c : Change} {r : Reply} :
    Answered (e :: es) c r ↔ e.change = c ∧ e.answer.reply = r ∨ Answered es c r := by
  simp [Answered]

/-- What a change was answered is on record among the exchanges about its rule. -/
theorem answered_about {es : List Exchange} {c : Change} {r : Reply} :
    Answered (about c.rule es) c r ↔ Answered es c r := by
  constructor
  · rintro ⟨e, he, hc, hr⟩
    exact ⟨e, (List.mem_filter.1 he).1, hc, hr⟩
  · rintro ⟨e, he, hc, hr⟩
    exact ⟨e, List.mem_filter.2 ⟨he, by simp [hc]⟩, hc, hr⟩

/-- Two sessions track the same holes and know the same of the secondary filter. -/
structure SameHoles (s t : Session) : Prop where
  registry : t.registry = s.registry
  ipv6 : t.ipv6 = s.ipv6

theorem SameHoles.trans {s t u : Session} (h : SameHoles s t) (h' : SameHoles t u) :
    SameHoles s u :=
  ⟨h'.registry.trans h.registry, h'.ipv6.trans h.ipv6⟩

theorem SameHoles.symm {s t : Session} (h : SameHoles s t) : SameHoles t s :=
  ⟨h.registry.symm, h.ipv6.symm⟩

/-! ## Actions that only show -/

namespace Console

/-- What becomes visible of an item. -/
def visible (c : Console) (item : Item) : List Item := if c.shows item then [item] else []

/-- Showing an item adds what becomes visible of it. -/
theorem on_show_visible (c : Console) (item : Item) (s : Session) :
    (c.show item).on s = (.ok (), { s with shown := s.shown ++ c.visible item }) := by
  rw [on_show, visible]
  split
  · rfl
  · rw [List.append_nil]

theorem on_say_visible (c : Console) (kind : MessageKind) (text : String) (s : Session) :
    (c.say kind text).on s =
      (.ok (), { s with shown := s.shown ++ c.visible (.message kind text) }) :=
  c.on_show_visible _ s

end Console

namespace Action

variable {α β : Type}

/-- An action that is caught goes on with what catches it. -/
theorem on_tryCatch (x : Action α) (f : Stop → Action α) (s : Session) :
    (tryCatch x f).on s =
      match x.on s with
      | (.ok a, t) => (.ok a, t)
      | (.error e, t) => (f e).on t := by
  change StateT.run (ExceptT.run (tryCatch x f)) s = _
  simp only [on, ExceptT.run, tryCatch, tryCatchThe, MonadExceptOf.tryCatch, ExceptT.tryCatch,
    ExceptT.mk, StateT.run, bind, StateT.bind]
  rcases h : (x : StateT Session Id (Except Stop α)) s with ⟨r, t⟩
  cases r <;> rfl

/-- An action whose value is used ends as the action does. -/
theorem on_map (x : Action α) (f : α → β) (s : Session) :
    (do let a ← x; pure (f a)).on s = ((x.on s).1.map f, (x.on s).2) := by
  rw [on_bind]
  rcases x.on s with ⟨r, t⟩
  cases r <;> rfl

/-- The action gives a value and changes nothing but what is shown. -/
def Shows (x : Action α) (a : α) : Prop :=
  ∀ s : Session, ∃ shown, x.on s = (.ok a, { s with shown := shown })

theorem shows_pure (a : α) : Shows (pure a) a := fun s => ⟨s.shown, rfl⟩

theorem shows_show (c : Console) (item : Item) : Shows (c.show item) () := fun s =>
  ⟨s.shown ++ c.visible item, c.on_show_visible item s⟩

theorem shows_say (c : Console) (kind : MessageKind) (text : String) :
    Shows (c.say kind text) () :=
  shows_show c (.message kind text)

theorem shows_bind {x : Action α} {f : α → Action β} {a : α} {b : β} (hx : Shows x a)
    (hf : Shows (f a) b) : Shows (x >>= f) b := by
  intro s
  obtain ⟨shown, h⟩ := hx s
  obtain ⟨shown', h'⟩ := hf { s with shown := shown }
  exact ⟨shown', by rw [on_bind, h]; exact h'⟩

/-- Showing something for each member of a list only shows. -/
theorem shows_forIn {γ : Type} (xs : List γ) (f : γ → Action Unit)
    (hf : ∀ c ∈ xs, Shows (f c) ()) :
    Shows (forIn xs PUnit.unit fun c _ => do f c; pure (.yield PUnit.unit)) PUnit.unit := by
  induction xs with
  | nil => exact shows_pure _
  | cons c xs ih =>
    have first : Shows (do f c; pure (ForInStep.yield PUnit.unit)) (.yield PUnit.unit) :=
      shows_bind (hf c List.mem_cons_self) (shows_pure _)
    rw [List.forIn_cons]
    exact shows_bind first (ih fun d hd => hf d (List.mem_cons_of_mem c hd))

end Action

/-! ## Asking for a change -/

namespace Executor

/-- Reporting a failed command only shows. -/
theorem shows_report (x : Executor) (f : Failure) : Action.Shows (x.report f) notRunStatus := by
  unfold report
  refine Action.shows_bind (Action.shows_say _ _ _) ?_
  refine Action.shows_bind (a := PUnit.unit) ?_ (Action.shows_pure _)
  exact Action.shows_forIn f.details _ fun detail _ => Action.shows_say _ _ _

/-- The answer to a command after some processes. A dry run answers in the tool's place. -/
def answer (x : Executor) (ps : List Spawned) (c : Command) (caps : List Capability) : Answer :=
  if x.dryRun then .silent else x.respond ps (x.argv c (some caps))

/-- The processes that a command with the given answer adds: none in a dry run. -/
def started (x : Executor) (c : Command) (caps : List Capability) (a : Answer) : List Spawned :=
  if x.dryRun then [] else [⟨c, x.argv c (some caps), x.timeout, true, a⟩]

/-- The status that an answer is reported as. -/
def statusOf : Answer → Except Stop Int
  | .exited status _ _ => .ok status
  | .timedOut | .notStarted _ => .ok notRunStatus
  | .interrupted => .error .interrupted

/-- Spawning a process adds it to the session with the system's answer. -/
theorem on_spawn (x : Executor) (c : Command) (argv : List String) (timeout : Option Int)
    (capture : Bool) (s : Session) :
    (x.spawn c argv timeout capture).on s =
      (.ok (x.respond s.spawned argv),
        { s with
          spawned := s.spawned ++ [⟨c, argv, timeout, capture, x.respond s.spawned argv⟩] }) :=
  rfl

/-- Running a command whose status is not checked spawns one process, or none in a dry run. -/
theorem on_run (x : Executor) (c : Command) (caps : List Capability) (s : Session) :
    ∃ shown, (x.run c { capabilities := some caps, check := false }).on s =
      (if x.dryRun then .ok ⟨c.words, 0, "", ""⟩
        else conclude { capabilities := some caps, check := false } (x.argv c (some caps)) x.timeout
          (Text.shellLine c.words) (Text.shellLine c.words) (x.answer s.spawned c caps),
        { s with
          spawned := s.spawned ++ x.started c caps (x.answer s.spawned c caps), shown := shown }) := by
  obtain ⟨shown, hsay⟩ :=
    Action.shows_say x.console .debug ("Running: " ++ Text.shellLine c.words) s
  simp only [run, Option.filter_none, Action.on_bind, hsay]
  cases hdry : x.dryRun with
  | true =>
    obtain ⟨shown', hshow⟩ := Action.shows_show x.console
      (.dryRun ("Run: " ++ Text.shellLine c.words)) { s with shown := shown }
    simp only [answer, started, hdry, if_true, Action.on_bind, hshow, List.append_nil]
    exact ⟨shown', rfl⟩
  | false =>
    refine ⟨shown, ?_⟩
    simp only [answer, started, hdry, Bool.false_eq_true, if_false, Action.on_bind, on_spawn,
      Option.getD_none]
    cases hend : conclude { capabilities := some caps, check := false } (x.argv c (some caps))
        x.timeout (Text.shellLine c.words) (Text.shellLine c.words)
        (x.respond s.spawned (x.argv c (some caps))) with
    | ok r =>
      simp [hend]
    | error e =>
      simp [hend]

/-- The status that the end of a command is reported as. -/
def statusGiven : Except Stop CommandResult → Except Stop Int
  | .ok r => .ok r.status
  | .error (.failed _) => .ok notRunStatus
  | .error .interrupted => .error .interrupted

/-- A command that is not checked ends with the status of its answer. -/
theorem statusGiven_conclude {o : RunOptions} (hcheck : o.check = false) (argv : List String)
    (timeout : Option Int) (line what : String) (a : Answer) :
    statusGiven (conclude o argv timeout line what a) = statusOf a := by
  cases a <;> simp [conclude, hcheck, statusOf, statusGiven]

/-- The status of a command is that of its answer; besides that, only what is shown changes. -/
theorem on_runStatus (x : Executor) (c : Command) (caps : List Capability) (s : Session) :
    ∃ shown, (x.runStatus c caps).on s =
      (statusOf (x.answer s.spawned c caps),
        { s with
          spawned := s.spawned ++ x.started c caps (x.answer s.spawned c caps), shown := shown }) := by
  obtain ⟨res, shown, hrun, hres⟩ : ∃ res shown,
      (x.run c { capabilities := some caps, check := false }).on s =
        (res, { s with
          spawned := s.spawned ++ x.started c caps (x.answer s.spawned c caps), shown := shown }) ∧
      statusGiven res = statusOf (x.answer s.spawned c caps) := by
    obtain ⟨shown, hrun⟩ := x.on_run c caps s
    refine ⟨_, shown, hrun, ?_⟩
    cases hdry : x.dryRun with
    | true => simp [answer, hdry, statusGiven, statusOf, Answer.silent]
    | false => exact statusGiven_conclude rfl _ _ _ _ _
  rw [← hres]
  simp only [runStatus, Action.on_bind, Action.on_tryCatch, hrun]
  -- Whatever the run came to, what is left to do only shows.
  cases res with
  | ok r =>
    simp only [Action.on_pure]
    split
    · obtain ⟨shown', hsay⟩ := Action.shows_say x.console .debug
        ("Exit code " ++ toString r.status ++ ": " ++
          if (Text.stripBlanks r.errors).isEmpty then "no output" else Text.stripBlanks r.errors)
        { s with
          spawned := s.spawned ++ x.started c caps (x.answer s.spawned c caps), shown := shown }
      refine ⟨shown', ?_⟩
      rw [Action.on_bind, hsay]
      rfl
    · exact ⟨shown, rfl⟩
  | error e =>
    cases e with
    | interrupted => exact ⟨shown, rfl⟩
    | failed f =>
      obtain ⟨shown', hreport⟩ := x.shows_report f
        { s with
          spawned := s.spawned ++ x.started c caps (x.answer s.spawned c caps), shown := shown }
      refine ⟨shown', ?_⟩
      simp only [Action.on_bind, hreport, Action.on_pure]
      rfl

/-- The reported status is zero exactly when the change was made. -/
theorem statusOf_eq (a : Answer) :
    (match statusOf a with | .ok n => .ok (n == 0) | .error e => .error e) = a.reply.result := by
  cases a with
  | exited status output errors =>
    by_cases h : status = 0
    · subst h; rfl
    · have hsuccess : (Answer.exited status output errors).isSuccess = false := by
        simp [Answer.isSuccess, h]
      simp [statusOf, Answer.reply, hsuccess, Reply.result, h]
  | timedOut => rfl
  | notStarted reason => rfl
  | interrupted => rfl

end Executor

namespace Toolkit

/-- The command that makes a change. -/
def command (k : Toolkit) (c : Change) : Command := .change (k.path c.tool) c

/-- The answer to a change after some processes. -/
def answer (k : Toolkit) (ps : List Spawned) (c : Change) : Answer :=
  k.executor.answer ps (k.command c) netfilterCapabilities

/-- The processes of some exchanges. A dry run has none. -/
def processes (k : Toolkit) (es : List Exchange) : List Spawned :=
  es.flatMap fun e => k.executor.started (k.command e.change) netfilterCapabilities e.answer

/-- Each of some exchanges has the answer that the system gives at that point. -/
def Answers (k : Toolkit) : List Spawned → List Exchange → Prop
  | _, [] => True
  | ps, e :: es => e.answer = k.answer ps e.change ∧ k.Answers (ps ++ k.processes [e]) es

/-- From one session to another exactly the given exchanges took place. -/
structure Asks (k : Toolkit) (s : Session) (es : List Exchange) (t : Session) : Prop where
  spawned : t.spawned = s.spawned ++ k.processes es
  answers : k.Answers s.spawned es

variable {k : Toolkit} {s t u : Session}

theorem processes_append (es fs : List Exchange) :
    k.processes (es ++ fs) = k.processes es ++ k.processes fs := List.flatMap_append

theorem answers_append {ps : List Spawned} {es fs : List Exchange} :
    k.Answers ps (es ++ fs) ↔ k.Answers ps es ∧ k.Answers (ps ++ k.processes es) fs := by
  induction es generalizing ps with
  | nil => simp [Answers, processes]
  | cons e es ih =>
    have hps : ps ++ k.processes (e :: es) = ps ++ k.processes [e] ++ k.processes es := by
      rw [List.append_assoc, ← processes_append]
      rfl
    -- The answers to the rest are given after the process of the first one.
    rw [List.cons_append, Answers, Answers, ih, hps, and_assoc]

/-- On a dry run every command works. -/
theorem Answers.silent {ps : List Spawned} {es : List Exchange} (h : k.Answers ps es)
    (dry : k.executor.dryRun = true) : ∀ e ∈ es, e.answer = .silent := by
  induction es generalizing ps with
  | nil => exact fun e he => absurd he List.not_mem_nil
  | cons e es ih =>
    obtain ⟨first, rest⟩ := h
    have hfirst : e.answer = .silent := by
      rw [first, answer, Executor.answer, dry]
      rfl
    exact List.forall_mem_cons.2 ⟨hfirst, ih rest⟩

theorem Asks.refl (k : Toolkit) (s : Session) : k.Asks s [] s :=
  ⟨(List.append_nil _).symm, trivial⟩

theorem Asks.trans {es fs : List Exchange} (h : k.Asks s es t) (h' : k.Asks t fs u) :
    k.Asks s (es ++ fs) u := by
  refine ⟨?_, answers_append.2 ⟨h.answers, ?_⟩⟩
  · rw [h'.spawned, h.spawned, processes_append, List.append_assoc]
  · rw [← h.spawned]
    exact h'.answers

/-- What comes after some exchanges without a further one adds nothing to them. -/
theorem Asks.trans_nil {es : List Exchange} (h : k.Asks s es t) (h' : k.Asks t [] u) :
    k.Asks s es u := by
  rw [← List.append_nil es]
  exact h.trans h'

/-- Outside of a dry run each exchange was one process. -/
theorem filterMap_processes (live : k.executor.dryRun = false) (es : List Exchange) :
    (k.processes es).filterMap Spawned.exchange? = es := by
  induction es with
  | nil => rfl
  | cons e es ih =>
    rw [processes, List.flatMap_cons, Executor.started, live, List.filterMap_append]
    exact congrArg (e :: ·) ih

/-- Outside of a dry run every exchange is on the record of the session. -/
theorem Asks.exchanges {es : List Exchange} (h : k.Asks s es t)
    (live : k.executor.dryRun = false) : t.exchanges = s.exchanges ++ es := by
  rw [Session.exchanges, h.spawned, List.filterMap_append, filterMap_processes live]
  rfl

/-- Saying something is no exchange. -/
theorem on_say (k : Toolkit) (kind : MessageKind) (text : String) (s : Session) :
    ∃ t, (k.say kind text).on s = (.ok (), t) ∧ k.Asks s [] t ∧ SameHoles s t := by
  obtain ⟨shown, hsay⟩ := Action.shows_say k.executor.console kind text s
  exact ⟨_, hsay, ⟨(List.append_nil _).symm, trivial⟩, ⟨rfl, rfl⟩⟩

/-- Asking for a change is one exchange, and its result is what the answer means. -/
theorem on_apply (k : Toolkit) (c : Change) (s : Session) :
    ∃ a t, (k.apply c).on s = (a.reply.result, t) ∧ k.Asks s [⟨c, a⟩] t ∧ SameHoles s t := by
  obtain ⟨shown, hrun⟩ := k.executor.on_runStatus (k.command c) netfilterCapabilities s
  refine ⟨k.answer s.spawned c,
    { s with spawned := s.spawned ++ k.processes [⟨c, k.answer s.spawned c⟩], shown := shown },
    ?_, ⟨rfl, rfl, trivial⟩, ⟨rfl, rfl⟩⟩
  have hps : k.processes [⟨c, k.answer s.spawned c⟩] =
      k.executor.started (k.command c) netfilterCapabilities (k.answer s.spawned c) := by
    simp [processes]
  rw [hps, ← Executor.statusOf_eq, Toolkit.apply, Action.on_bind, ← Toolkit.command, hrun,
    ← Toolkit.answer]
  cases Executor.statusOf (k.answer s.spawned c) <;> rfl

/-- Asking one filter for a change is one exchange. -/
theorem on_applyTo (k : Toolkit) (f : Filter) (verb : Verb) (rule : Rule) (s : Session) :
    ∃ a t, (k.applyTo f verb rule).on s = (a.reply.result, t) ∧
      k.Asks s [⟨.inFilter f verb rule, a⟩] t ∧ SameHoles s t :=
  k.on_apply (.inFilter f verb rule) s

end Toolkit

end Pinhole
