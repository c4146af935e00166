import Pinhole.Proofs.RoundTrip
import Pinhole.Proofs.Shapes

/-!
# The numerals in command lines

Two kinds of command lines carry numbers that the settings decide: those that mark packets carry the
mark, and those about the routing policy carry the mark and the table. `numerals` reads them off the
end of a line, and whatever a toolkit is used for there is nothing else to be read than the mark and
the table of its settings, as they are spelled there (`numerals_reach_tools`).

The check of the settings lets every text of digit marks through. So what reaches the tools is a
numeral in ASCII digits if, and only if, the settings spell it so.
-/

namespace Pinhole

/-- A numeral in ASCII digits. -/
structure AsciiNumeral (w : String) : Prop where
  filled : w.toList ≠ []
  digits : ∀ c ∈ w.toList, c.isDigit = true

instance (w : String) : Decidable (AsciiNumeral w) :=
  decidable_of_iff ((!w.toList.isEmpty && w.toList.all Char.isDigit) = true) <| by
    rw [Bool.and_eq_true, Bool.not_eq_true', List.isEmpty_eq_false_iff, List.all_eq_true]
    exact ⟨fun h => ⟨h.1, h.2⟩, fun h => ⟨h.filled, h.digits⟩⟩

/-! ## Command lines -/

/-- The mark or table that a command line carries at its end. -/
def numerals (line : List String) : List String :=
  match line.reverse with
  | mark :: "--set-mark" :: _ => [mark]
  | table :: "table" :: mark :: "fwmark" :: _ => [mark, table]
  | _ => []

/-- The marks and tables of a rule. -/
def Rule.numerals : Rule → List String
  | .accept .. | .masquerade _ => []
  | .mark _ value => [value]
  | .policy _ value table => [value, table]

/-- A command line carries the numerals of its rule, whatever stands before it. -/
theorem Rule.numerals_words (front : List String) (verb : Verb) (r : Rule) :
    Pinhole.numerals (front ++ r.words verb) = r.numerals := by
  cases r with
  | accept protocol port interface => simp [Pinhole.numerals, words, numerals]
  | masquerade interface => simp [Pinhole.numerals, words, numerals]
  | mark user value => simp [Pinhole.numerals, words, numerals]
  | policy version value table => simp [Pinhole.numerals, words, numerals]

/-- What stands before a command in the line of its process. -/
theorem Executor.argv_eq_append (x : Executor) (c : Command) (caps : Option (List Capability)) :
    ∃ front, x.argv c caps = front ++ c.words := by
  unfold argv sandbox
  split
  · split
    · split
      · exact ⟨_, rfl⟩
      · exact ⟨[], rfl⟩
    · exact ⟨[], rfl⟩
  · exact ⟨[], rfl⟩

/-- The process of a change carries the numerals of its rule. -/
theorem Toolkit.numerals_argv (k : Toolkit) (c : Change) (caps : Option (List Capability)) :
    numerals (k.executor.argv (k.command c) caps) = c.rule.numerals := by
  obtain ⟨front, hline⟩ := k.executor.argv_eq_append (k.command c) caps
  have line : front ++ (k.command c).words = front ++ [k.path c.tool] ++ c.rule.words c.verb := by
    simp [command, Command.words]
  rw [hline, line, Rule.numerals_words]

/-! ## What a toolkit is used for -/

/-- What the parts of a program may ask a toolkit for. Nothing has to be well formed. -/
inductive Demand
  | call (c : Call)
  | rollBack (p : SteeringProgress) (interface : String)
  | step (verb : Verb) (step : SteeringStep)
  | mark (f : Filter) (verb : Verb) (user : String)

namespace Toolkit

variable {k : Toolkit}

/-- The session after a demand. -/
def meet (k : Toolkit) (s : Session) : Demand → Session
  | .call c => k.perform s c
  | .rollBack p interface => ((k.rollBack p interface).on s).2
  | .step verb step => ((k.applyStep verb step).on s).2
  | .mark f verb user => ((k.applyTo f verb (.mark user k.mark)).on s).2

/-- The session after some demands. -/
def meetAll (k : Toolkit) (ds : List Demand) (s : Session) : Session := ds.foldl k.meet s

/-- A rule carries no numeral, the mark of the toolkit, or its mark and table. -/
def Numbers (k : Toolkit) (r : Rule) : Prop :=
  r.numerals ∈ [[], [k.mark], [k.mark, k.table]]

/-- The rules of holes carry no numeral. -/
theorem numbers_hole (h : Hole) : k.Numbers h.rule := List.mem_cons_self

theorem numbers_mark (user : String) : k.Numbers (.mark user k.mark) :=
  List.mem_cons_of_mem _ List.mem_cons_self

/-- The rules of a step carry what the toolkit says. -/
theorem numbers_of_mem_stepChanges {verb : Verb} {step : SteeringStep} {c : Change}
    (h : c ∈ k.stepChanges verb step) : k.Numbers c.rule := by
  obtain ⟨tool, -, rfl⟩ := List.mem_map.1 h
  cases step with
  | policy version => exact List.mem_cons_of_mem _ (List.mem_cons_of_mem _ List.mem_cons_self)
  | masquerade interface => exact List.mem_cons_self
  | mark user => exact numbers_mark user

theorem numbers_of_mem_changes {verb : Verb} {steps : List SteeringStep} {c : Change}
    (h : c ∈ k.changes verb steps) : k.Numbers c.rule := by
  obtain ⟨step, -, hc⟩ := List.mem_flatMap.1 h
  exact numbers_of_mem_stepChanges hc

end Toolkit

/-- Every process carries no numeral, the mark of the toolkit, or its mark and table. -/
def Numbered (k : Toolkit) (s : Session) : Prop :=
  ∀ p ∈ s.spawned, numerals p.argv ∈ [[], [k.mark], [k.mark, k.table]]

namespace Numbered

variable {k : Toolkit} {s t : Session} {es : List Exchange}

/-- Asking for changes of such rules keeps a session numbered. -/
theorem extend (numbered : Numbered k s) (asks : k.Asks s es t)
    (rules : ∀ e ∈ es, k.Numbers e.change.rule) : Numbered k t := by
  intro p hp
  rw [asks.spawned] at hp
  rcases List.mem_append.1 hp with hp | hp
  · exact numbered p hp
  · obtain ⟨e, he, hcommand, hargv⟩ := Toolkit.mem_processes hp
    rw [hargv, hcommand, k.numerals_argv]
    exact rules e he

/-- Asking for nothing keeps a session numbered. -/
theorem idle (numbered : Numbered k s) (asks : k.Asks s [] t) : Numbered k t :=
  numbered.extend asks (by simp)

theorem punching {protocol : Protocol} {port : Value} {interface : String}
    {r : Except Stop Outcome} (numbered : Numbered k s)
    (course : Punching k protocol port interface s t r) : Numbered k t := by
  cases course with
  | badPort hport asks same => exact numbered.idle asks
  | badInterface hport hinterface asks same => exact numbered.idle asks
  | already hport hprotocol hinterface valid old asks same => exact numbered.idle asks
  | tried hport hprotocol hinterface valid new course asks tracked =>
    refine numbered.extend asks fun e he => ?_
    obtain ⟨f, verb, hc⟩ := course.change_eq he
    exact hc ▸ Toolkit.numbers_hole _

theorem plugging {protocol : Protocol} {port : Value} {interface : String}
    {r : Except Stop Outcome} (numbered : Numbered k s)
    (course : Plugging k protocol port interface s t r) : Numbered k t := by
  cases course with
  | badPort hport asks same => exact numbered.idle asks
  | unknown hport hprotocol hinterface new asks same => exact numbered.idle asks
  | tried hport hprotocol hinterface old course asks flag tracked =>
    refine numbered.extend asks fun e he => ?_
    obtain ⟨f, hc⟩ := course.change_eq he
    exact hc ▸ Toolkit.numbers_hole _

theorem pluggingEach {hs : List Hole} {r : Except Stop Unit} (numbered : Numbered k s)
    (course : PluggingEach k hs s t r) : Numbered k t := by
  induction course with
  | nil => exact numbered
  | cons first rest ih => exact ih (numbered.plugging first)
  | stopped first => exact numbered.plugging first

theorem steering {users : List String} {interface : String} {verb : Verb}
    {r : Except Stop Outcome} (numbered : Numbered k s)
    (course : Steering k users interface s t verb r) : Numbered k t := by
  cases course with
  | badInterface hinterface asks same => exact numbered.idle asks
  | badUser hinterface huser asks same => exact numbered.idle asks
  | setUp hinterface husers course asks same =>
    refine numbered.extend asks fun e he => ?_
    obtain ⟨_, _, hc⟩ := course.change_mem he
    exact Toolkit.numbers_of_mem_changes hc
  | tearDown hinterface course asks same =>
    exact numbered.extend asks fun e he => Toolkit.numbers_of_mem_changes (course.change_mem he)

/-- Whatever is demanded, a session stays numbered. -/
theorem meet (numbered : Numbered k s) (d : Demand) : Numbered k (k.meet s d) := by
  cases d with
  | call c =>
    exact k.perform_of_courses numbered.punching numbered.plugging numbered.pluggingEach
      numbered.steering c
  | rollBack p interface =>
    obtain ⟨es, r, t, ht, course, asks, -⟩ := k.on_undo (p.steps interface) s
    rw [Toolkit.meet, Toolkit.rollBack, ht]
    exact numbered.extend asks fun e he => Toolkit.numbers_of_mem_changes (course.change_mem he)
  | step verb step =>
    cases verb with
    | add =>
      obtain ⟨es, r, t, ht, course, asks, -⟩ := k.on_applyStep_add step s
      rw [Toolkit.meet, ht]
      exact numbered.extend asks fun e he =>
        Toolkit.numbers_of_mem_stepChanges (course.change_mem he)
    | delete =>
      obtain ⟨es, r, t, ht, course, asks, -⟩ := k.on_applyStep_delete step s
      rw [Toolkit.meet, ht]
      exact numbered.extend asks fun e he =>
        Toolkit.numbers_of_mem_stepChanges (course.change_mem he)
  | mark f verb user =>
    obtain ⟨a, t, ht, asks, -⟩ := k.on_applyTo f verb (.mark user k.mark) s
    rw [Toolkit.meet, ht]
    refine numbered.extend asks fun e he => ?_
    rw [List.mem_singleton.1 he]
    exact Toolkit.numbers_mark user

theorem meetAll (numbered : Numbered k s) (ds : List Demand) : Numbered k (k.meetAll ds s) := by
  induction ds generalizing s with
  | nil => exact numbered
  | cons d ds ih => exact ih (numbered.meet d)

end Numbered

/-! ## What reaches the tools -/

/-- Where commands are run, asking for a policy spawns a process with the mark and the table. -/
theorem Toolkit.exists_policy_process {k : Toolkit} (live : k.executor.dryRun = false)
    (s : Session) :
    ∃ p ∈ (k.meetAll [.step .add (.policy .ipv4)] s).spawned,
      numerals p.argv = [k.mark, k.table] := by
  let c : Change := ⟨.routing, .add, .policy .ipv4 k.mark k.table⟩
  obtain ⟨a, t, ht, asks, -⟩ := k.on_apply c s
  have met : k.meetAll [.step .add (.policy .ipv4)] s = t := congrArg Prod.snd ht
  let p : Spawned := ⟨k.command c, k.executor.argv (k.command c) (some netfilterCapabilities),
    k.executor.timeout, true, a⟩
  have process : k.processes [⟨c, a⟩] = [p] := by
    simp [processes, Executor.started, live, p]
  refine ⟨p, ?_, k.numerals_argv c (some netfilterCapabilities)⟩
  rw [met, asks.spawned, process]
  exact List.mem_append_right _ List.mem_cons_self

/-- Let some data be accepted as settings.

* The mark and the table are not empty, and made of digit marks.
* Whatever a toolkit with these settings is used for, on whatever system, every process that is
  spawned carries no numeral, the mark, or the mark and the table, as they are in the settings.
* So all numerals that reach the tools are in ASCII digits if, and only if, the mark and the table
  are. -/
theorem numerals_reach_tools {entries : List (Value × Value)} {m : Config.Machine}
    (accepted : Config.Machine.ofEntries entries = .ok m) :
    let f := m.firewall
    let spawned (x : Executor) (ds : List Demand) : List Spawned :=
      ((Toolkit.ofSettings x f).meetAll ds { ipv6 := f.ipv6AlwaysEnabled }).spawned
    (Text.isDigitMarks f.userTrafficMark = true ∧ Text.isDigitMarks f.userTrafficTable = true) ∧
    (∀ x ds, ∀ p ∈ spawned x ds, numerals p.argv ∈
      [[], [f.userTrafficMark], [f.userTrafficMark, f.userTrafficTable]]) ∧
    ((∀ x ds, ∀ p ∈ spawned x ds, ∀ w ∈ numerals p.argv, AsciiNumeral w) ↔
      AsciiNumeral f.userTrafficMark ∧ AsciiNumeral f.userTrafficTable) := by
  intro f spawned
  have sound : f.Sound := (Config.sound_of_ofEntries accepted).1
  have carried : ∀ x ds, ∀ p ∈ spawned x ds, numerals p.argv ∈
      [[], [f.userTrafficMark], [f.userTrafficMark, f.userTrafficTable]] := by
    intro x ds
    have fresh : Numbered (.ofSettings x f) { ipv6 := f.ipv6AlwaysEnabled } :=
      fun p hp => absurd hp List.not_mem_nil
    exact fresh.meetAll ds
  refine ⟨⟨sound.mark, sound.table⟩, carried, ?_, ?_⟩
  · intro ascii
    let x : Executor := { console := {}, respond := .silent }
    obtain ⟨p, hp, both⟩ := Toolkit.exists_policy_process (k := .ofSettings x f) rfl
      { ipv6 := f.ipv6AlwaysEnabled }
    have words := ascii x _ p hp
    rw [both] at words
    exact ⟨words _ List.mem_cons_self, words _ (List.mem_cons_of_mem _ List.mem_cons_self)⟩
  · rintro ⟨mark, table⟩ x ds p hp w hw
    have known : w = f.userTrafficMark ∨ w = f.userTrafficTable := by
      have hnumerals := carried x ds p hp
      simp only [List.mem_cons, List.not_mem_nil, or_false] at hnumerals
      rcases hnumerals with none | one | two
      · rw [none] at hw
        exact absurd hw List.not_mem_nil
      · rw [one] at hw
        exact Or.inl (List.mem_singleton.1 hw)
      · rw [two] at hw
        simpa using hw
    rcases known with rfl | rfl
    · exact mark
    · exact table

/-- The settings with a mark and a table of digits. The steering of a user is set up, the second
rule of which is refused, and then torn down. -/
theorem digits_reach_tools :
    let entries : List (Value × Value) := [(.text "firewall", .mapping
      [(.text "user_traffic_mark", .text "007"), (.text "user_traffic_table", .text "200")])]
    ∃ m, Config.Machine.ofEntries entries = .ok m ∧
      let k := Toolkit.ofSettings
        { console := {}, respond := .scripted [.silent, .refusal] } m.firewall
      let ds : List Demand :=
        [.call (.steer .add ["alice"] "tun0"), .call (.steer .delete ["alice"] "tun0")]
      let spawned := (k.meetAll ds { ipv6 := m.firewall.ipv6AlwaysEnabled }).spawned
      spawned.map (numerals ·.argv) =
        [["007", "200"], ["007", "200"], ["007", "200"], ["007", "200"], ["007", "200"], [], [],
          ["007"], ["007"]] ∧
      ∀ p ∈ spawned, ∀ w ∈ numerals p.argv, AsciiNumeral w := by
  intro entries
  let m : Config.Machine := { firewall := { userTrafficMark := "007", userTrafficTable := "200" } }
  have accepted : Config.Machine.ofEntries entries = .ok m := by decide +kernel
  obtain ⟨-, -, ascii⟩ := numerals_reach_tools accepted
  refine ⟨m, accepted, by decide +kernel, ?_⟩
  exact ascii.2 (by decide) _ _

/-- A mark that is a superscript is accepted, and the commands that set up the routing policy carry
it. -/
theorem superscript_reaches_tools :
    let entries : List (Value × Value) :=
      [(.text "firewall", .mapping [(.text "user_traffic_mark", .text "²")])]
    ∃ m, Config.Machine.ofEntries entries = .ok m ∧
      let k := Toolkit.ofSettings { console := {}, respond := .silent } m.firewall
      ∃ p ∈ (k.meetAll [.call (.steer .add ["alice"] "tun0")] {}).spawned,
        numerals p.argv = ["²", "1"] ∧ ¬ AsciiNumeral "²" := by
  intro entries
  let m : Config.Machine := { firewall := { userTrafficMark := "²" } }
  have accepted : Config.Machine.ofEntries entries = .ok m := by decide +kernel
  exact ⟨m, accepted, by decide +kernel⟩

end Pinhole
