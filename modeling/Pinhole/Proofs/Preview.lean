import Pinhole.Proofs.Parallel

/-!
# Dry runs as previews

A dry run shows what it leaves undone. It is a preview of the run in which every command works and
says nothing: both give the same results, track the same holes and know the same of the secondary
filter all the time, and the lines of the dry run are the command lines of the other, in their order
and without the words that drop privileges.

`Previews` relates the two sessions. The toolkits of the two runs are paired under it
(`paired_service`), so what is true of showing an item and of asking for one change is true of
everything that a service is asked for.
-/

namespace Pinhole

/-! ## What is shown -/

/-- What a line of a dry run says that it leaves undone. -/
def Item.undone? : Item → Option String
  | .dryRun text => some text
  | _ => none

/-- What a session says that it leaves undone. -/
def Session.undone (s : Session) : List String := s.shown.filterMap Item.undone?

/-- What a session shows besides. -/
def Session.told (s : Session) : List Item := s.shown.filter (·.undone?.isNone)

/-- The line of a dry run about a command. -/
def Command.undoneText (c : Command) : String := "Run: " ++ Text.shellLine c.words

/-- Of a message that becomes visible nothing is left undone. -/
theorem Console.undone?_of_mem_visible {c : Console} {kind : MessageKind} {text : String}
    {item : Item} (h : item ∈ c.visible (.message kind text)) : item.undone? = none := by
  rw [visible] at h
  split at h
  · rw [List.mem_singleton.1 h]
    rfl
  · cases h

/-! ## One command -/

namespace Executor

variable {x : Executor}

/-- The message in front of a command. -/
def announced (x : Executor) (c : Command) : List Item :=
  x.console.visible (.message .debug ("Running: " ++ Text.shellLine c.words))

/-- A dry run shows the command and reports success. -/
theorem on_runStatus_dry (dry : x.dryRun = true) (c : Command) (caps : List Capability)
    (s : Session) :
    (x.runStatus c caps).on s =
      (.ok 0, { s with
        shown := s.shown ++ x.announced c ++ x.console.visible (.dryRun c.undoneText) }) := by
  simp only [runStatus, run, Option.filter_none, Action.on_bind, Action.on_tryCatch,
    Console.on_say_visible, Console.on_show_visible, dry, if_true, Action.on_pure]
  rfl

/-- Where every command works and says nothing, a command is spawned and reported as a success. -/
theorem on_runStatus_silent (live : x.dryRun = false) (silent : x.respond = .silent) (c : Command)
    (caps : List Capability) (s : Session) :
    (x.runStatus c caps).on s =
      (.ok 0, { s with
        spawned := s.spawned ++ [⟨c, x.argv c (some caps), x.timeout, true, .silent⟩],
        shown := s.shown ++ x.announced c }) := by
  simp only [runStatus, run, Option.filter_none, Action.on_bind, Action.on_tryCatch,
    Console.on_say_visible, live, Bool.false_eq_true, if_false, on_spawn, silent]
  rfl

end Executor

/-! ## The two runs -/

/-- A dry run, and a run in which every command works, have come to the same point. -/
structure Previews (x : Executor) (s t : Session) : Prop where
  same : SameHoles s t
  idle : s.spawned = []
  /-- Each command is told on the dry run and spawned in the other. -/
  undone : s.undone = t.spawned.map (·.command.undoneText)
  argv : ∀ p ∈ t.spawned, p.argv = x.sandbox p.command.words netfilterCapabilities
  told : t.shown = s.told

namespace Previews

variable {x : Executor} {s t : Session}

/-- Messages that become visible in both runs keep them together. -/
theorem say (h : Previews x s t) {items : List Item} (plain : ∀ i ∈ items, i.undone? = none) :
    Previews x { s with shown := s.shown ++ items } { t with shown := t.shown ++ items } where
  same := ⟨h.same.registry, h.same.ipv6⟩
  idle := h.idle
  undone := by
    have hnil : items.filterMap Item.undone? = [] := List.filterMap_eq_nil_iff.2 plain
    rw [Session.undone, List.filterMap_append, hnil, List.append_nil]
    exact h.undone
  argv := h.argv
  told := by
    have hall : items.filter (·.undone?.isNone) = items :=
      List.filter_eq_self.2 fun i hi => by rw [plain i hi]; rfl
    rw [Session.told, List.filter_append, hall]
    exact congrArg (· ++ items) h.told

/-- A command that is told on the dry run and spawned in the other keeps them together. -/
theorem spawn (h : Previews x s t) (p : Spawned)
    (argv : p.argv = x.sandbox p.command.words netfilterCapabilities) :
    Previews x { s with shown := s.shown ++ [.dryRun p.command.undoneText] }
      { t with spawned := t.spawned ++ [p] } where
  same := ⟨h.same.registry, h.same.ipv6⟩
  idle := h.idle
  undone := by
    rw [Session.undone, List.filterMap_append, List.map_append]
    exact congrArg (· ++ [p.command.undoneText]) h.undone
  argv := List.forall_mem_append.2 ⟨h.argv, fun q hq => by rw [List.mem_singleton.1 hq]; exact argv⟩
  told := by
    rw [Session.told, List.filter_append]
    exact h.told.trans (List.append_nil _).symm

end Previews

/-- The toolkit of a service with the given settings, on a dry run or not. -/
def Toolkit.service (f : Config.Firewall) (verbosity : Int) (root : Bool) (respond : Responder)
    (dryRun : Bool) : Toolkit :=
  .ofSettings
    { console := ⟨.ofInt verbosity, dryRun⟩, dryRun, root, account := f.account,
      timeout := f.commandTimeout, respond } f

/-- The toolkit of a dry run is paired with that of the run in which every command works. -/
theorem paired_service (f : Config.Firewall) (verbosity : Int) (root : Bool) (respond : Responder) :
    let dry := Toolkit.service f verbosity root respond true
    let real := Toolkit.service f verbosity root .silent false
    Paired (Previews real.executor) dry real := by
  intro dry real
  refine
    { paths := rfl, mark := rfl, table := rfl, same := Previews.same,
      say := fun kind text s t h => ?say, apply := fun c s t h => ?apply,
      learn := fun h => ⟨⟨h.same.registry, rfl⟩, h.idle, h.undone, h.argv, h.told⟩,
      track := fun h g => ⟨⟨rfl, h.same.ipv6⟩, h.idle, h.undone, h.argv, h.told⟩ }
  case say =>
    rw [Toolkit.say, Toolkit.say, Console.on_say_visible, Console.on_say_visible]
    exact ⟨rfl, h.say fun i hi => Console.undone?_of_mem_visible hi⟩
  case apply =>
    have hdry := Executor.on_runStatus_dry (x := dry.executor) rfl (dry.command c)
      netfilterCapabilities s
    have hreal := Executor.on_runStatus_silent (x := real.executor) rfl rfl (real.command c)
      netfilterCapabilities t
    rw [Toolkit.apply, Toolkit.apply, Action.on_bind, Action.on_bind, ← Toolkit.command,
      ← Toolkit.command, hdry, hreal]
    exact ⟨rfl, (h.say fun i hi => Console.undone?_of_mem_visible hi).spawn
      ⟨real.command c, _, _, _, _⟩ rfl⟩

/-! ## What calls give back -/

/-- Whether one asks for the outcome or, in short, for no more than whether it is a success. -/
inductive Wish
  | outcome
  | success
  deriving DecidableEq, Repr

/-- What a call gives back. The plugging of all holes gives nothing. -/
inductive Returned
  | outcome (o : Outcome)
  | success (b : Bool)
  | nothing
  deriving DecidableEq, Repr

/-- What is given back of an outcome. -/
def Returned.ofOutcome : Wish → Outcome → Returned
  | .outcome, o => .outcome o
  | .success, o => .success o.isOk

/-- What a call gives back, or why it stops. -/
def Toolkit.returned (k : Toolkit) (s : Session) (wish : Wish) : Call → Except Stop Returned
  | .punch protocol port interface =>
    ((k.punch protocol port interface).on s).1.map (.ofOutcome wish)
  | .plug protocol port interface => ((k.plug protocol port interface).on s).1.map (.ofOutcome wish)
  | .plugAll => (k.plugAll.on s).1.map fun _ => .nothing
  | .steer verb users interface => ((k.steer users interface verb).on s).1.map (.ofOutcome wish)

/-- Paired toolkits give back the same. -/
theorem Paired.returned {R : Session → Session → Prop} {k k' : Toolkit} (p : Paired R k k')
    {s s' : Session} (related : R s s') (wish : Wish) (c : Call) :
    k'.returned s' wish c = k.returned s wish c := by
  cases c with
  | punch protocol port interface =>
    simp only [Toolkit.returned, (p.punch protocol port interface related).1]
  | plug protocol port interface =>
    simp only [Toolkit.returned, (p.plug protocol port interface related).1]
  | plugAll => simp only [Toolkit.returned, (p.plugAll related).1]
  | steer verb users interface =>
    simp only [Toolkit.returned, (p.steer users interface verb related).1]

/-- A dry run is a faithful preview. After any calls the next one gives back the same on the dry run
and in the run in which every command works and says nothing, and both track the same holes and know
the same of the secondary filter. The dry run spawns nothing. Its lines are the command lines of the
processes that the other spawns, each in the sandbox; besides these lines both show the same. -/
theorem dryRun_previews (f : Config.Firewall) (verbosity : Int) (root : Bool) (respond : Responder)
    (calls : List Call) :
    let dry := Toolkit.service f verbosity root respond true
    let real := Toolkit.service f verbosity root .silent false
    let s := dry.serve calls { ipv6 := f.ipv6AlwaysEnabled }
    let t := real.serve calls { ipv6 := f.ipv6AlwaysEnabled }
    (∀ wish c, dry.returned s wish c = real.returned t wish c) ∧
      s.registry = t.registry ∧ s.ipv6 = t.ipv6 ∧ s.spawned = [] ∧
      s.undone = t.spawned.map (fun p => "Run: " ++ Text.shellLine p.command.words) ∧
      (∀ p ∈ t.spawned, p.argv = real.executor.sandbox p.command.words netfilterCapabilities) ∧
      s.told = t.shown := by
  intro dry real s t
  have paired : Paired (Previews real.executor) dry real := paired_service f verbosity root respond
  have fresh : Previews real.executor { ipv6 := f.ipv6AlwaysEnabled }
      { ipv6 := f.ipv6AlwaysEnabled } :=
    ⟨⟨rfl, rfl⟩, rfl, rfl, fun p hp => absurd hp List.not_mem_nil, rfl⟩
  have previews : Previews real.executor s t := paired.serve calls fresh
  exact ⟨fun wish c => (paired.returned previews wish c).symm, previews.same.registry.symm,
    previews.same.ipv6.symm, previews.idle, previews.undone, previews.argv, previews.told.symm⟩

end Pinhole
