import Pinhole.Proofs.Parallel

/-!
# The shapes of command lines

Values that users give end up as words of command lines that are run with privileges. The command
lines keep to a few shapes all the same, whatever was asked for: `Shaped` lists them, with what the
words may be that come from users. An interface begins with a letter or a digit, and the name of a
user does not begin with a hyphen, so neither is taken for an option.

Plugging does not check an interface. What keeps its command lines in shape is that it only deletes
the rules of tracked holes, and that these were checked when they were punched (`Orderly`).
-/

namespace Pinhole

/-! ## Words -/

/-- The decimal form of an integer from 1 to 65535. -/
def PortWord (w : String) : Prop := ∃ n : Nat, 1 ≤ n ∧ n ≤ 65535 ∧ w = toString n

/-- One to fifteen letters, digits, hyphens and periods; a letter or a digit begins and ends it. -/
structure InterfaceWord (w : String) : Prop where
  size : 1 ≤ w.toList.length ∧ w.toList.length ≤ 15
  chars : ∀ c ∈ w.toList, c.isAlphanum = true ∨ c = '-' ∨ c = '.'
  first : ∀ c ∈ w.toList.head?, c.isAlphanum = true
  last : ∀ c ∈ w.toList.getLast?, c.isAlphanum = true

/-- One to thirty-two letters, digits, underscores, periods and hyphens, and no hyphen begins it;
the last character may be a dollar sign. -/
structure UserWord (w : String) : Prop where
  size : w.toList.length ≤ 32
  chars : ∃ name, (w.toList = name ∨ w.toList = name ++ ['$']) ∧ name ≠ [] ∧
    ∀ c ∈ name, c.isAlphanum = true ∨ c = '_' ∨ c = '.' ∨ c = '-'
  first : w.toList.head? ≠ some '-'

theorem portWord_of_port {n : Int} (h : Input.port (.int n) = .ok n) : PortWord (toString n) := by
  obtain ⟨-, hmin, hmax⟩ := (Input.port_eq_ok_iff _ _).1 h
  have hmin' : 1 ≤ n := hmin
  have hmax' : n ≤ 65535 := hmax
  obtain ⟨m, rfl⟩ := Int.eq_ofNat_of_zero_le (show 0 ≤ n by omega)
  exact ⟨m, by omega, by omega, rfl⟩

theorem interfaceWord_of_interface {name : String} (nonempty : name ≠ "")
    (h : Input.isInterface name = true) : InterfaceWord name := by
  have hne : name.toList ≠ [] := by simpa using nonempty
  simp only [Input.isInterface, Bool.and_eq_true, decide_eq_true_eq, Bool.not_eq_true',
    Bool.or_eq_false_iff, beq_eq_false_iff_ne, List.all_eq_true] at h
  obtain ⟨⟨⟨hsize, hfirst⟩, hlast⟩, hall⟩ := h
  have chars : ∀ c ∈ name.toList, c.isAlphanum = true ∨ c = '-' ∨ c = '.' := fun c hc => by
    have hchar := hall c hc
    simp only [Input.isInterfaceChar, Bool.or_eq_true, beq_iff_eq, or_assoc] at hchar
    exact hchar
  have alphanum : ∀ c ∈ name.toList, c ≠ '-' → c ≠ '.' → c.isAlphanum = true :=
    fun c hc hhyphen hperiod => ((chars c hc).resolve_right fun e => e.elim hhyphen hperiod)
  refine ⟨⟨List.length_pos_iff.2 hne, Nat.le_of_lt_succ hsize⟩, chars, ?_, ?_⟩
  · intro c hc
    exact alphanum c (List.mem_of_head? hc) (fun e => hfirst.1 (e ▸ hc)) fun e => hfirst.2 (e ▸ hc)
  · intro c hc
    exact alphanum c (List.mem_of_getLast? hc) (fun e => hlast.1 (e ▸ hc)) fun e => hlast.2 (e ▸ hc)

/-- What follows the first character of the name of a user is characters of such names, and perhaps
a dollar sign. -/
theorem exists_of_isUserTail {cs : List Char} (h : Input.isUserTail cs = true) :
    ∃ name, (cs = name ∨ cs = name ++ ['$']) ∧ ∀ c ∈ name, Input.isUserChar c = true := by
  induction cs using Input.isUserTail.induct with
  | case1 => exact ⟨[], Or.inl rfl, by simp⟩
  | case2 => exact ⟨[], Or.inr rfl, by simp⟩
  | case3 c cs hdollar ih =>
    simp only [Input.isUserTail, Bool.and_eq_true] at h
    obtain ⟨name, hname, hchars⟩ := ih h.2
    refine ⟨c :: name, ?_, List.forall_mem_cons.2 ⟨h.1, hchars⟩⟩
    rcases hname with rfl | rfl
    · exact Or.inl rfl
    · exact Or.inr rfl

theorem userWord_of_user {name : String} (h : Input.isUser name = true) : UserWord name := by
  unfold Input.isUser at h
  split at h
  · cases h
  · rename_i c cs hname
    simp only [Bool.and_eq_true, decide_eq_true_eq] at h
    obtain ⟨⟨hsize, hstart⟩, htail⟩ := h
    obtain ⟨rest, hrest, hchars⟩ := exists_of_isUserTail htail
    refine ⟨by rw [hname]; exact hsize, ⟨c :: rest, ?_, List.cons_ne_nil c rest, ?_⟩, ?_⟩
    · rw [hname]
      exact hrest.imp (congrArg (c :: ·)) (congrArg (c :: ·))
    · refine List.forall_mem_cons.2 ⟨?_, fun d hd => ?_⟩
      · have hc : c.isAlphanum = true ∨ c = '_' ∨ c = '.' := by
          simpa [Input.isUserStart, or_assoc] using hstart
        exact hc.imp_right (Or.imp_right Or.inl)
      · simpa [Input.isUserChar, Input.isUserStart, or_assoc] using hchars d hd
    · rw [hname]
      rintro heq
      obtain rfl : c = '-' := Option.some.inj heq
      exact absurd hstart (by decide)

/-! ## Command lines -/

/-- The words for the interface of an accept rule: none if it is about all of them. -/
inductive OnInterface : List String → Prop
  | any : OnInterface []
  | one {w : String} (hw : InterfaceWord w) : OnInterface ["-i", w]

/-- The command lines of the three tools. -/
inductive Shaped (f : Config.Firewall) : List String → Prop
  | accept {tool verb protocol port : String} {on : List String}
    (htool : tool ∈ [f.tools.iptables, f.tools.ip6tables]) (hverb : verb ∈ ["-I", "-D"])
    (hprotocol : protocol ∈ ["tcp", "udp"]) (hport : PortWord port) (hon : OnInterface on) :
    Shaped f ([tool, verb, "INPUT", "-p", protocol, "--dport", port] ++ on ++
      ["-j", "ACCEPT", "-w"])
  | masquerade {tool verb interface : String}
    (htool : tool ∈ [f.tools.iptables, f.tools.ip6tables]) (hverb : verb ∈ ["-A", "-D"])
    (hinterface : InterfaceWord interface) :
    Shaped f [tool, "-t", "nat", verb, "POSTROUTING", "-o", interface, "-j", "MASQUERADE"]
  | mark {tool verb user : String} (htool : tool ∈ [f.tools.iptables, f.tools.ip6tables])
    (hverb : verb ∈ ["-A", "-D"]) (huser : UserWord user) :
    Shaped f [tool, "-t", "mangle", verb, "OUTPUT", "-m", "owner", "--uid-owner", user,
      "-j", "MARK", "--set-mark", f.userTrafficMark]
  | policy {verb : String} {version : List String} (hversion : version ∈ [[], ["-6"]])
    (hverb : verb ∈ ["add", "delete"]) :
    Shaped f ([f.tools.ip] ++ version ++
      ["rule", verb, "fwmark", f.userTrafficMark, "table", f.userTrafficTable])

/-- What stands before each command line. Root drops to the unprivileged account, unless there is
none or this is Android, and keeps two capabilities. -/
def dropHeader (f : Config.Firewall) (root : Bool) : List String :=
  match root, f.platform, f.unprivilegedUser with
  | true, .linux, some user =>
    ["setpriv", "--reuid=" ++ user, "--regid=" ++ user, "--clear-groups",
      "--inh-caps=-all,+net_admin,+net_raw", "--ambient-caps=-all,+net_admin,+net_raw",
      "--bounding-set=-all,+net_admin,+net_raw", "--"]
  | _, _, _ => []

/-- The words that stand before a command are those that drop the privileges of root. -/
theorem argv_eq_dropHeader_append {x : Executor} {f : Config.Firewall}
    (account : x.account = f.account) (dropper : x.dropper = "setpriv") (c : Command) :
    x.argv c (some netfilterCapabilities) = dropHeader f x.root ++ c.words := by
  have hset : capabilitySet netfilterCapabilities = "-all,+net_admin,+net_raw" := by decide
  simp only [Executor.argv, Executor.sandbox, dropWords, account, dropper, hset,
    Config.Firewall.account, dropHeader]
  cases x.root <;> cases f.platform <;> cases f.unprivilegedUser <;> rfl

/-! ## Changes -/

/-- The names in a step are well formed. -/
def SteeringStep.Named : SteeringStep → Prop
  | .policy _ => True
  | .masquerade interface => Input.interface false interface = .ok interface
  | .mark user => Input.isUser user = true

/-- The changes that a toolkit may ask for. -/
inductive Proper (k : Toolkit) : Change → Prop
  | hole (f : Filter) (verb : Verb) {h : Hole} (valid : h.Valid) :
    Proper k (.inFilter f verb h.rule)
  | step {verb : Verb} {step : SteeringStep} {c : Change} (named : step.Named)
    (hc : c ∈ k.stepChanges verb step) : Proper k c

section Changes

variable {k : Toolkit} {s t : Session} {es : List Exchange} {c : Change}

/-- All steps are named well if all names are. -/
theorem SteeringStep.named_of_mem_all {users : List String} {interface : String}
    {step : SteeringStep} (hinterface : Input.interface false interface = .ok interface)
    (husers : ∀ user ∈ users, Input.isUser user = true)
    (h : step ∈ SteeringStep.all users interface) : step.Named := by
  simp only [SteeringStep.all, List.mem_append, List.mem_cons, List.not_mem_nil, or_false,
    List.mem_map] at h
  rcases h with (rfl | rfl | rfl) | ⟨user, huser, rfl⟩
  · trivial
  · trivial
  · exact hinterface
  · exact husers user huser

theorem Proper.of_mem_changes {verb : Verb} {steps : List SteeringStep}
    (named : ∀ step ∈ steps, step.Named) (h : c ∈ k.changes verb steps) : Proper k c := by
  obtain ⟨step, hstep, hc⟩ := List.mem_flatMap.1 h
  exact .step (named step hstep) hc

/-- Installing steps that are named well asks for proper changes. -/
theorem Installing.proper {steps : List SteeringStep} {r : Except Stop Outcome} {e : Exchange}
    (course : Installing k [] steps es r) (named : ∀ step ∈ steps, step.Named) (he : e ∈ es) :
    Proper k e.change := by
  cases course with
  | finished up => exact .of_mem_changes named (up.change_mem he)
  | cut up => exact .of_mem_changes named (up.change_mem he)
  | @aborted before after step es fs gs r hsteps up failed down =>
    have named_before : ∀ step ∈ before, step.Named := fun x hx => named x (by simp [hsteps, hx])
    rcases List.mem_append.1 he with he | he
    · exact .of_mem_changes named_before (up.change_mem he)
    rcases List.mem_append.1 he with he | he
    · exact .step (named step (by simp [hsteps])) (failed.change_mem he)
    · refine .of_mem_changes (fun x hx => ?_) (down.change_mem he)
      exact named_before x (by simpa using hx)

/-- A proper change has a command line of one of the shapes. -/
theorem Proper.shaped {x : Executor} {f : Config.Firewall} (h : Proper (.ofSettings x f) c) :
    Shaped f ((Toolkit.ofSettings x f).command c).words := by
  have filter_tool : ∀ tool ∈ [Tool.filter .primary, .filter .secondary],
      (Toolkit.ofSettings x f).path tool ∈ [f.tools.iptables, f.tools.ip6tables] := by
    simp [Toolkit.path, Toolkit.filterPath, Toolkit.ofSettings]
  have chain_verb : ∀ added verb, Rule.chainVerb added verb ∈ [added, "-D"] := fun added verb => by
    cases verb <;> simp [Rule.chainVerb]
  cases h with
  | @hole g verb h valid =>
    obtain ⟨protocol, port, i⟩ := h
    have hprotocol : protocol.name ∈ ["tcp", "udp"] := by cases protocol <;> simp [Protocol.name]
    have hport : PortWord (toString port) := portWord_of_port valid.port
    have htool : Tool.filter g ∈ [Tool.filter .primary, .filter .secondary] := by cases g <;> simp
    refine .accept (filter_tool _ htool) (chain_verb "-I" verb) hprotocol hport ?_
    split
    · exact .any
    · rename_i hi
      have wellFormed : Input.isInterface i = true := (Input.interface_eq_ok valid.interface).2
      exact .one (interfaceWord_of_interface (by simpa using hi) wellFormed)
  | @step verb step c named hc =>
    obtain ⟨tool, htool, rfl⟩ := List.mem_map.1 hc
    cases step with
    | policy version =>
      obtain rfl : tool = .routing := by simpa [SteeringStep.tools] using htool
      refine .policy ?_ ?_
      · cases version <;> simp
      · cases verb <;> simp
    | masquerade i =>
      have nonempty : i ≠ "" := by
        rintro rfl
        cases named
      exact .masquerade (filter_tool tool htool) (chain_verb "-A" verb)
        (interfaceWord_of_interface nonempty (Input.interface_eq_ok named).2)
    | mark user =>
      exact .mark (filter_tool tool htool) (chain_verb "-A" verb) (userWord_of_user named)

end Changes

/-! ## Orderly sessions -/

section Orderly

variable {k : Toolkit} {s t : Session} {es : List Exchange}

/-- All tracked holes have been checked, and every process runs a proper change in the way in which
the toolkit runs commands. -/
structure Orderly (k : Toolkit) (s : Session) : Prop where
  valid : ∀ h ∈ s.registry, h.Valid
  spawned : ∀ p ∈ s.spawned, ∃ c, Proper k c ∧ p.command = k.command c ∧
    p.argv = k.executor.argv p.command (some netfilterCapabilities)

/-- A process of some exchanges runs the change of one of them. -/
theorem Toolkit.mem_processes {p : Spawned} (h : p ∈ k.processes es) :
    ∃ e ∈ es, p.command = k.command e.change ∧
      p.argv = k.executor.argv p.command (some netfilterCapabilities) := by
  obtain ⟨e, he, hp⟩ := List.mem_flatMap.1 h
  rw [Executor.started] at hp
  split at hp
  · cases hp
  · rw [List.mem_singleton.1 hp]
    exact ⟨e, he, rfl, rfl⟩

/-- Asking for proper changes keeps a session orderly. -/
theorem Orderly.extend (orderly : Orderly k s) (asks : k.Asks s es t)
    (proper : ∀ e ∈ es, Proper k e.change) (valid : ∀ h ∈ t.registry, h.Valid) : Orderly k t := by
  refine ⟨valid, fun p hp => ?_⟩
  rw [asks.spawned] at hp
  rcases List.mem_append.1 hp with hp | hp
  · exact orderly.spawned p hp
  · obtain ⟨e, he, hcommand, hargv⟩ := Toolkit.mem_processes hp
    exact ⟨e.change, proper e he, hcommand, hargv⟩

/-- Asking for nothing keeps a session orderly. -/
theorem Orderly.idle (orderly : Orderly k s) (asks : k.Asks s [] t) (same : SameHoles s t) :
    Orderly k t :=
  orderly.extend asks (by simp) fun h tracked => orderly.valid h (same.registry ▸ tracked)

variable {protocol : Protocol} {port : Value} {interface : String}

theorem Orderly.punching {r : Except Stop Outcome} (orderly : Orderly k s)
    (course : Punching k protocol port interface s t r) : Orderly k t := by
  have valid : ∀ h ∈ t.registry, h.Valid := course.move.valid orderly.valid
  cases course with
  | badPort hport asks same => exact orderly.idle asks same
  | badInterface hport hinterface asks same => exact orderly.idle asks same
  | already hport hprotocol hinterface ok old asks same => exact orderly.idle asks same
  | tried hport hprotocol hinterface ok new course asks tracked =>
    refine orderly.extend asks (fun e he => ?_) valid
    obtain ⟨f, verb, hc⟩ := course.change_eq he
    exact hc ▸ .hole f verb ok

/-- Nobody checks the interface of a plug, but the hole that is closed is tracked. -/
theorem Orderly.plugging {r : Except Stop Outcome} (orderly : Orderly k s)
    (course : Plugging k protocol port interface s t r) : Orderly k t := by
  have valid : ∀ h ∈ t.registry, h.Valid := course.move.valid orderly.valid
  cases course with
  | badPort hport asks same => exact orderly.idle asks same
  | unknown hport hprotocol hinterface new asks same => exact orderly.idle asks same
  | tried hport hprotocol hinterface old course asks flag tracked =>
    refine orderly.extend asks (fun e he => ?_) valid
    obtain ⟨f, hc⟩ := course.change_eq he
    exact hc ▸ .hole f .delete (orderly.valid _ old)

theorem Orderly.pluggingEach {hs : List Hole} {r : Except Stop Unit} (orderly : Orderly k s)
    (course : PluggingEach k hs s t r) : Orderly k t := by
  induction course with
  | nil => exact orderly
  | cons first rest ih => exact ih (orderly.plugging first)
  | stopped first => exact orderly.plugging first

theorem Orderly.steering {users : List String} {verb : Verb} {r : Except Stop Outcome}
    (orderly : Orderly k s) (course : Steering k users interface s t verb r) : Orderly k t := by
  have valid : ∀ h ∈ t.registry, h.Valid := course.move.valid orderly.valid
  cases course with
  | badInterface hinterface asks same => exact orderly.idle asks same
  | badUser hinterface huser asks same => exact orderly.idle asks same
  | setUp hinterface husers course asks same =>
    have named : ∀ user ∈ users, Input.isUser user = true := by
      simpa [Toolkit.firstBadUser?] using husers
    exact orderly.extend asks (fun e he => course.proper
      (fun step => SteeringStep.named_of_mem_all hinterface named) he) valid
  | tearDown hinterface course asks same =>
    have named : ∀ user ∈ users.filter (Input.isUser ·), Input.isUser user = true := by simp
    exact orderly.extend asks (fun e he => .of_mem_changes
      (fun step => SteeringStep.named_of_mem_all hinterface named) (course.change_mem he)) valid

theorem Orderly.perform (orderly : Orderly k s) (c : Call) : Orderly k (k.perform s c) :=
  k.perform_of_courses orderly.punching orderly.plugging orderly.pluggingEach orderly.steering c

theorem Orderly.serve (orderly : Orderly k s) (calls : List Call) :
    Orderly k (k.serve calls s) := by
  induction calls generalizing s with
  | nil => exact orderly
  | cons c calls ih => exact ih (orderly.perform c)

end Orderly

/-- Whatever a toolkit was asked for, on whatever machine and with whatever answers: every command
has one of the documented shapes, also when it is only shown, and every process that was spawned
runs such a command, behind the words that drop the privileges of root. -/
theorem shaped_of_served (f : Config.Firewall) (console : Console) (dryRun root : Bool)
    (respond : Responder) (calls : List Call) :
    let k := Toolkit.ofSettings
      { console := console, dryRun := dryRun, root := root, account := f.account,
        timeout := f.commandTimeout, respond := respond } f
    let fresh : Session := { ipv6 := f.ipv6AlwaysEnabled }
    (∀ p ∈ (k.enacted.serve calls fresh).spawned, Shaped f p.command.words) ∧
      ∀ p ∈ (k.serve calls fresh).spawned, Shaped f p.command.words ∧
        p.argv = dropHeader f root ++ p.command.words := by
  intro k fresh
  have orderly : ∀ x : Executor, Orderly (.ofSettings x f) fresh := fun x =>
    ⟨fun h tracked => absurd tracked List.not_mem_nil, fun p hp => absurd hp List.not_mem_nil⟩
  constructor
  · intro p hp
    obtain ⟨c, proper, hcommand, -⟩ := ((orderly k.executor.enacted).serve calls).spawned p hp
    rw [hcommand]
    exact proper.shaped
  · intro p hp
    obtain ⟨c, proper, hcommand, hargv⟩ := ((orderly k.executor).serve calls).spawned p hp
    exact ⟨hcommand ▸ proper.shaped, hargv.trans (argv_eq_dropHeader_append rfl rfl p.command)⟩

end Pinhole
