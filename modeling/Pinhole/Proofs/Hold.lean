import Mathlib.Tactic.MkIffOfInductiveProp
import Pinhole.Program
import Pinhole.Proofs.Ledger
import Pinhole.Proofs.Service
import Pinhole.Proofs.Task

/-!
# What a hold leaves behind

A hold opens each hole once at most and closes each open one once at most. `History` lists all that
can happen to the rule of one hole on the way, with the interrupts, and `History.kept_iff` says for
each of these whether the filters keep what they kept before.

`rules_after_hold` puts the holes together. A hold that is not interrupted while it closes leaves a
rule behind in two cases: the user interrupts it while the secondary filter is asked to take a rule
that the primary filter has taken already, or the primary filter does not give back a rule that the
secondary one refused. Nothing tracks the hole then, so nothing closes it.
-/

namespace Pinhole

/-! ## One hole -/

/-- What can have happened to the rule of a hole before anything is closed, by whether the secondary
filter is known to work and whether the hole is tracked. -/
inductive Opening (rule : Rule) (w : Bool) (tracked : Prop) (es : List Exchange) : Prop
  | fresh (untracked : ¬ tracked) (none : es = [])
  | failed {v v' : Bool} {r : Except Stop Bool} (untracked : ¬ tracked)
    (course : Accepting rule v es v' r) (failed : r ≠ .ok true)
  | opened {v v' : Bool} (tracked : tracked) (course : Accepting rule v es v' (.ok true))
    (known : v' = true → w = true)

/-- What can have happened to the rule of a hole in the whole of a hold. -/
inductive History (rule : Rule) (tracked : Prop) (es : List Exchange) : Prop
  | before {w : Bool} (opening : Opening rule w tracked es)
  | closing {v v' w : Bool} {fs gs : List Exchange} {r : Except Stop Bool} (split : es = fs ++ gs)
    (course : Accepting rule v fs v' (.ok true)) (known : v' = true → w = true)
    (closing : Unaccepting rule w gs r) (still : tracked ↔ r ≠ .ok true)

/-- When the filters keep of a rule what they kept before. -/
@[mk_iff]
structure Kept (m : Ledger) (es : List Exchange) (tracked : Prop) (rule : Rule) : Prop where
  /-- Nobody interrupted the secondary filter when it was to take the rule. -/
  uncut : ¬ Answered es (.inFilter .secondary .add rule) .cut
  /-- A rule that the secondary filter refused was given back by the primary one. -/
  given_back : ¬ tracked → Answered es (.inFilter .secondary .add rule) .refused →
    Answered es (.inFilter .primary .delete rule) .done
  /-- The rule of a hole that is still tracked was deleted all the same. -/
  deleted : tracked → Answered es (.inFilter .primary .delete rule) .done ∧
    (Answered es (.inFilter .secondary .add rule) .done →
      Answered es (.inFilter .secondary .delete rule) .done)
  /-- The secondary filter did not give away a copy that it had before. -/
  own : Answered es (.inFilter .secondary .delete rule) .done →
    Answered es (.inFilter .secondary .add rule) .done ∨ m.copies .secondary rule = 0

section OneHole

variable {m : Ledger} {rule : Rule} {tracked : Prop} {es : List Exchange}

theorem Opening.mono {w w' : Bool} {tracked' : Prop} (h : Opening rule w tracked es)
    (hw : w = true → w' = true) (same : tracked' ↔ tracked) : Opening rule w' tracked' es := by
  cases h with
  | fresh untracked none => exact .fresh (mt same.1 untracked) none
  | failed untracked course failed => exact .failed (mt same.1 untracked) course failed
  | opened tracked course known => exact .opened (same.2 tracked) course fun h => hw (known h)

theorem forall_filter_iff {p : Filter → Prop} : (∀ f, p f) ↔ p .primary ∧ p .secondary :=
  ⟨fun h => ⟨h .primary, h .secondary⟩, fun h f => by cases f <;> simp [h]⟩

/-- Whether the filters keep what they kept, before anything is closed. -/
theorem Opening.kept_iff {w : Bool} (h : Opening rule w tracked es) (m : Ledger) :
    (∀ f, (m.after es).copies f rule = m.copies f rule) ↔ Kept m es tracked rule := by
  rw [forall_filter_iff, Pinhole.kept_iff]
  cases h with
  | fresh untracked none =>
    subst none
    simp [untracked, answered_nil]
  | failed untracked course failed =>
    cases course with
    | refused ha => simp [untracked, answered_cons, answered_nil, ha]
    | cutFirst ha => simp [untracked, answered_cons, answered_nil, ha]
    | both ha hb => exact absurd rfl failed
    | tolerated ha hb => exact absurd rfl failed
    | cutSecond ha hb => simp [untracked, answered_cons, answered_nil, ha, hb]
    | @undone a b c ha hb hc =>
      by_cases hdone : c.reply = .done <;>
        simp [untracked, answered_cons, answered_nil, ha, hb, hdone]
    | cutUndo ha hb hc => simp [untracked, answered_cons, answered_nil, ha, hb, hc]
  | opened tracked course known =>
    cases course with
    | both ha hb => simp [tracked, answered_cons, answered_nil, ha, hb]
    | tolerated ha hb => simp [tracked, answered_cons, answered_nil, ha, hb]

/-- Whether the filters keep what they kept, in the whole of a hold. -/
theorem History.kept_iff (h : History rule tracked es) (m : Ledger) :
    (∀ f, (m.after es).copies f rule = m.copies f rule) ↔ Kept m es tracked rule := by
  cases h with
  | before opening => exact opening.kept_iff m
  | @closing v v' w fs gs r split course known closing still =>
    subst split
    rw [forall_filter_iff, Pinhole.kept_iff, still]
    cases course with
    | @both _ a b ha hb =>
      cases closing with
      | cutFirst hc => simp [answered_cons, answered_nil, ha, hb, hc]
      | primary hc => cases known rfl
      | @cutSecond c d hc hd =>
        by_cases hdone : c.reply = .done <;>
          simp [answered_cons, answered_nil, ha, hb, hd, hdone]
      | @both c d hc hd =>
        by_cases hdone : c.reply = .done <;> by_cases hdone' : d.reply = .done <;>
          simp [answered_cons, answered_nil, ha, hb, hdone, hdone']
    | @tolerated a b ha hb =>
      cases closing with
      | cutFirst hc => simp [answered_cons, answered_nil, ha, hb, hc]
      | @primary c hc =>
        by_cases hdone : c.reply = .done <;> simp [answered_cons, answered_nil, ha, hb, hdone]
      | @cutSecond c d hc hd =>
        by_cases hdone : c.reply = .done <;>
          simp [answered_cons, answered_nil, ha, hb, hd, hdone]
      | @both c d hc hd =>
        -- Only where both deletions are done is there a copy to lose that was there before.
        by_cases hdone : c.reply = .done <;> by_cases hdone' : d.reply = .done <;>
          simp [answered_cons, answered_nil, ha, hb, hdone, hdone']
        omega

end OneHole

/-! ## All holes -/

/-- All that was asked of the tools is about rules of holes. -/
def OnlyHoles (s : Session) : Prop :=
  ∀ e ∈ s.exchanges, ∃ (f : Filter) (verb : Verb) (h : Hole), e.change = .inFilter f verb h.rule

/-- A session that has not closed anything so far. -/
structure Prepared (s : Session) : Prop where
  only : OnlyHoles s
  valid : ∀ h ∈ s.registry, h.Valid
  holes : ∀ h : Hole, Opening h.rule s.ipv6 (h ∈ s.registry) (about h.rule s.exchanges)

/-- A session in which moreover no hole failed to be opened. -/
structure Running (s : Session) : Prop extends Prepared s where
  fresh : ∀ h ∉ s.registry, about h.rule s.exchanges = []

/-- A session that may have closed holes. -/
structure Held (s : Session) : Prop where
  only : OnlyHoles s
  holes : ∀ h : Hole, History h.rule (h ∈ s.registry) (about h.rule s.exchanges)

section AllHoles

variable {k : Toolkit} {s t : Session} {es : List Exchange} {m : Ledger}

/-- Exchanges about the rule of a hole are about rules of holes. -/
theorem OnlyHoles.extend (only : OnlyHoles s) (log : t.exchanges = s.exchanges ++ es) (h : Hole)
    (change_eq : ∀ e ∈ es, ∃ f verb, e.change = .inFilter f verb h.rule) : OnlyHoles t := by
  intro e he
  rw [log] at he
  rcases List.mem_append.1 he with he | he
  · exact only e he
  · obtain ⟨f, verb, hc⟩ := change_eq e he
    exact ⟨f, verb, h, hc⟩

/-- Exchanges about the rule of a hole add nothing to those about another. -/
theorem about_eq_of_other {h x : Hole} (hx : x ≠ h) (log : t.exchanges = s.exchanges ++ es)
    (rule_eq : ∀ e ∈ es, e.change.rule = h.rule) :
    about x.rule t.exchanges = about x.rule s.exchanges := by
  rw [log, about_append_of_ne (Hole.rule_ne_of_about hx rule_eq)]

theorem Prepared.held (h : Prepared s) : Held s := ⟨h.only, fun x => .before (h.holes x)⟩

theorem Prepared.quiet (h : Prepared s) (quiet : Quiet s t) : Prepared t := by
  obtain ⟨only, valid, holes⟩ := h
  constructor
  · rwa [OnlyHoles, quiet.exchanges]
  · rwa [quiet.same.registry]
  · rwa [quiet.exchanges, quiet.same.registry, quiet.same.ipv6]

theorem Running.quiet (h : Running s) (quiet : Quiet s t) : Running t := by
  refine ⟨h.toPrepared.quiet quiet, ?_⟩
  rw [quiet.exchanges, quiet.same.registry]
  exact h.fresh

theorem Held.quiet (h : Held s) (quiet : Quiet s t) : Held t := by
  obtain ⟨only, holes⟩ := h
  constructor
  · rwa [OnlyHoles, quiet.exchanges]
  · rwa [quiet.exchanges, quiet.same.registry]

/-- The rules that the filters keep are what they were exactly when that is so for each hole. -/
theorem Held.after_eq_iff (h : Held s) (m : Ledger) :
    m.after s.exchanges = m ↔
      ∀ x : Hole, Kept m (about x.rule s.exchanges) (x ∈ s.registry) x.rule := by
  have habout : ∀ (x : Hole) (f : Filter),
      (m.after (about x.rule s.exchanges)).copies f x.rule =
        (m.after s.exchanges).copies f x.rule :=
    fun x f => Ledger.copies_after_about rfl _
  constructor
  · intro hsame x
    refine ((h.holes x).kept_iff m).1 fun f => ?_
    rw [habout, hsame]
  · intro kept
    refine Ledger.ext_count fun t r => ?_
    by_cases hplace : ∃ (f : Filter) (x : Hole), t = .filter f ∧ r = x.rule
    · obtain ⟨f, x, rfl, rfl⟩ := hplace
      exact (habout x f).symm.trans (((h.holes x).kept_iff m).2 (kept x) f)
    · -- Nothing was asked about any other place.
      refine m.count_after_of_ne fun e he hp => hplace ?_
      obtain ⟨f, verb, x, hc⟩ := h.only e he
      rw [hc, Ledger.place_inFilter] at hp
      obtain ⟨ht, hr⟩ := Prod.mk.inj hp
      exact ⟨f, x, ht.symm, hr.symm⟩

/-- A session that opened a hole is prepared, and it is running if that worked. -/
theorem Running.opening {h : Hole} {r : Except Stop Bool} (running : Running s) (valid : h.Valid)
    (new : h ∉ s.registry) (course : Accepting h.rule s.ipv6 es t.ipv6 r)
    (log : t.exchanges = s.exchanges ++ es) (tracked : t.registry = s.registry.opened h r) :
    Prepared t ∧ (r = .ok true → Running t) := by
  have flag : s.ipv6 = true → t.ipv6 = true := fun hs => (course.flag_iff rfl).2 (Or.inl hs)
  -- In a running session nothing was asked yet about the rule of a hole that is not tracked.
  have hself : about h.rule t.exchanges = es := by
    rw [log, about_append, running.fresh h new, List.nil_append]
    exact about_eq_self fun e he => course.rule_eq he
  have hother : ∀ x ≠ h, about x.rule t.exchanges = about x.rule s.exchanges := fun x hx =>
    about_eq_of_other hx log fun e he => course.rule_eq he
  have prepared : Prepared t := by
    refine ⟨running.only.extend log h fun e he => course.change_eq he, fun x hx => ?_, fun x => ?_⟩
    · rw [tracked, Registry.mem_opened_iff] at hx
      rcases hx with old | ⟨rfl, -⟩
      · exact running.valid x old
      · exact valid
    · rw [tracked, Registry.mem_opened_iff]
      by_cases hx : x = h
      · subst hx
        rw [hself]
        by_cases hr : r = .ok true
        · subst hr
          exact .opened (Or.inr ⟨rfl, rfl⟩) course id
        · exact .failed (by simp [new, hr]) course hr
      · rw [hother x hx]
        exact (running.holes x).mono flag (by simp [hx])
  refine ⟨prepared, fun hr => ⟨prepared, fun x untracked => ?_⟩⟩
  rw [tracked, Registry.mem_opened_iff, not_or] at untracked
  have hx : x ≠ h := fun e => untracked.2 ⟨e, hr⟩
  rw [hother x hx]
  exact running.fresh x untracked.1

/-- A session that tried to punch a hole is prepared, and it is running if that worked. -/
theorem Running.punching {protocol : Protocol} {port : Value} {interface : String}
    {r : Except Stop Outcome} (running : Running s) (live : k.executor.dryRun = false)
    (course : Punching k protocol port interface s t r) :
    Prepared t ∧ ∀ o, r = .ok o → o.isOk = true → Running t := by
  have nothing : k.Asks s [] t → SameHoles s t → Prepared t ∧ ∀ o, r = .ok o → o.isOk = true →
      Running t := fun asks same => by
    have quiet : Quiet s t := ⟨by rw [asks.spawned]; exact List.append_nil _, same⟩
    exact ⟨running.toPrepared.quiet quiet, fun _ _ _ => running.quiet quiet⟩
  cases course with
  | badPort hport asks same => exact nothing asks same
  | badInterface hport hinterface asks same => exact nothing asks same
  | already hport hprotocol hinterface valid old asks same => exact nothing asks same
  | @tried h es q hport hprotocol hinterface valid new course asks tracked =>
    obtain ⟨prepared, hrunning⟩ :=
      running.opening valid new course (asks.exchanges live) tracked
    refine ⟨prepared, fun o ho hok => hrunning ?_⟩
    match q with
    | .ok true => rfl
    | .ok false =>
      rw [← Except.ok.inj ho] at hok
      cases hok
    | .error e => cases ho

/-- A session that closed an open hole is still held, and it did nothing to the other holes. -/
theorem Held.closing {h : Hole} {r : Except Stop Bool} (held : Held s) (old : h ∈ s.registry)
    (opening : Opening h.rule s.ipv6 (h ∈ s.registry) (about h.rule s.exchanges))
    (course : Unaccepting h.rule s.ipv6 es r) (log : t.exchanges = s.exchanges ++ es)
    (tracked : t.registry = s.registry.closed h r) :
    Held t ∧ ∀ x ≠ h, about x.rule t.exchanges = about x.rule s.exchanges ∧
      (x ∈ t.registry ↔ x ∈ s.registry) := by
  have hself : about h.rule t.exchanges = about h.rule s.exchanges ++ es := by
    rw [log, about_append, about_eq_self fun e he => course.rule_eq he]
  have hmem : ∀ x, x ∈ t.registry ↔ x ∈ s.registry ∧ (x = h → r ≠ .ok true) := by
    intro x
    rw [tracked, Registry.mem_closed_iff]
  have hother : ∀ x ≠ h, about x.rule t.exchanges = about x.rule s.exchanges ∧
      (x ∈ t.registry ↔ x ∈ s.registry) := by
    intro x hx
    rw [hmem]
    exact ⟨about_eq_of_other hx log fun e he => course.rule_eq he, by simp [hx]⟩
  refine ⟨⟨held.only.extend log h fun e he => ?_, fun x => ?_⟩, hother⟩
  · obtain ⟨f, hc⟩ := course.change_eq he
    exact ⟨f, .delete, hc⟩
  · by_cases hx : x = h
    · subst hx
      cases opening with
      | fresh untracked none => exact absurd old untracked
      | failed untracked course failed => exact absurd old untracked
      | opened _ added known =>
        exact .closing hself added known course ((hmem x).trans (by simp [old]))
    · rw [(hother x hx).1, (hother x hx).2]
      exact held.holes x

/-- A session that plugged some of its open holes is still held. -/
theorem Held.pluggingEach {hs : List Hole} {r : Except Stop Unit} (held : Held s)
    (live : k.executor.dryRun = false) (course : PluggingEach k hs s t r) (nodup : hs.Nodup)
    (ready : ∀ h ∈ hs, h ∈ s.registry ∧ h.Valid ∧
      Opening h.rule s.ipv6 (h ∈ s.registry) (about h.rule s.exchanges)) : Held t := by
  induction course with
  | nil => exact held
  | @cons h hs s u t o r first rest ih =>
    obtain ⟨old, valid, opening⟩ := ready h List.mem_cons_self
    obtain ⟨hnew, nodup⟩ := List.nodup_cons.1 nodup
    obtain ⟨es, q, -, closing, asks, flag, tracked⟩ := first.of_mem valid old
    obtain ⟨held_u, same⟩ := held.closing old opening closing (asks.exchanges live) tracked
    -- The other holes are as ready for their turn as they were.
    refine ih held_u nodup fun x hx => ?_
    have hne : x ≠ h := fun e => hnew (e ▸ hx)
    obtain ⟨old', valid', opening'⟩ := ready x (List.mem_cons_of_mem h hx)
    rw [(same x hne).1, (same x hne).2, flag]
    exact ⟨old', valid', opening'⟩
  | @stopped h hs s t e first =>
    obtain ⟨old, valid, opening⟩ := ready h List.mem_cons_self
    obtain ⟨es, q, -, closing, asks, flag, tracked⟩ := first.of_mem valid old
    exact (held.closing old opening closing (asks.exchanges live) tracked).1

end AllHoles

/-! ## The task -/

section Task

variable {d : Desk}

namespace Desk

/-- Opening holes prepares a session that is running. -/
theorem on_openEach (live : d.toolkit.executor.dryRun = false) (interface : String)
    (ports : List (Protocol × Int)) {s : TaskState} (running : Running s.toSession) :
    ∃ r t, (d.openEach interface ports).on s = (r, t) ∧ Prepared t.toSession := by
  induction ports generalizing s with
  | nil => exact ⟨_, s, rfl, running.toPrepared⟩
  | cons port rest ih =>
    obtain ⟨protocol, port⟩ := port
    obtain ⟨r, t, ht, course⟩ := d.toolkit.on_punch protocol (.int port) interface s.toSession
    obtain ⟨prepared, hrunning⟩ := running.punching live course
    simp only [openEach, Task.on_bind, Task.on_lift, ht]
    cases r with
    | error e => exact ⟨_, _, rfl, prepared⟩
    | ok o =>
      simp only [Except.mapError]
      obtain ⟨q, u, hu, quiet, -⟩ := d.on_audit (.holePunched d.surroundings.stamp
        (d.ending o.isOk) protocol.name (.int port) interface (errorText? o))
        { s with toSession := t }
      rw [hu]
      have prepared_u : Prepared u.toSession := prepared.quiet quiet
      cases q with
      | error h => exact ⟨_, u, rfl, prepared_u⟩
      | ok q =>
        simp only [on_require]
        cases hfailure : o.failure? ("Could not open " ++ protocol.title ++ " port " ++ toString port)
            (some "Run with -vvv to see the iptables commands") with
        | some f => exact ⟨_, u, rfl, prepared_u⟩
        | none =>
          have hok : o.isOk = true := (o.failure?_eq_none_iff _ _).1 hfailure
          exact ih ((hrunning o rfl hok).quiet quiet)

/-- Waiting is quiet. -/
theorem on_waitForUser (s : TaskState) :
    ∃ t, (d.waitForUser).on s = (.ok (), t) ∧ Quiet s.toSession t.toSession := by
  rw [waitForUser]
  cases d.flags.dryRun with
  | true => exact Task.on_show d.console _ s
  | false =>
    obtain ⟨t, ht, quiet⟩ := Task.on_say d.console .info
      "Holes are open. Press Ctrl+C or send SIGTERM to close them." s
    obtain ⟨u, hu, quiet'⟩ := Task.on_show d.console (.line "") t
    refine ⟨u, ?_, quiet.trans quiet'⟩
    simp only [Bool.false_eq_true, if_false, Task.on_bind, ht]
    exact hu

/-- Opening holes and waiting prepares a session that is running, however it ends. -/
theorem on_openAndWait (live : d.toolkit.executor.dryRun = false) (interface : String)
    (ports : List (Protocol × Int)) {s : TaskState} (running : Running s.toSession) :
    ∃ r t, (d.openAndWait ports interface).on s = (r, t) ∧ Prepared t.toSession := by
  obtain ⟨r, t, ht, prepared⟩ := on_openEach live interface ports running
  rw [openAndWait, Task.on_bind, Task.on_attempt, ht]
  match r with
  | .ok () =>
    obtain ⟨u, hu, quiet⟩ := Task.on_say d.console .success
      ("Opened " ++ toString ports.length ++ " hole(s)") t
    obtain ⟨v, hv, quiet'⟩ := on_waitForUser (d := d) u
    refine ⟨.ok (), v, ?_, prepared.quiet (quiet.trans quiet')⟩
    simp only [Task.on_bind, hu]
    exact hv
  | .error .interrupted =>
    obtain ⟨u, hu, quiet⟩ := Task.on_show d.console (.line "") t
    obtain ⟨v, hv, quiet'⟩ := Task.on_say d.console .warn "Interrupted while opening holes" u
    refine ⟨.ok (), v, ?_, prepared.quiet (quiet.trans quiet')⟩
    simp only [Task.on_bind, hu]
    exact hv
  | .error (.failed f) => exact ⟨_, t, rfl, prepared⟩
  | .error (.unforeseen e) => exact ⟨_, t, rfl, prepared⟩
  | .error (.exit code) => exact ⟨_, t, rfl, prepared⟩

/-- How a task that holds holes can end: with nothing tracked, by an interrupt, by an event that it
does not know, or with a failure that names the holes that are still open. -/
def EndsWell (r : Except Halt Unit) (t : Session) : Prop :=
  t.registry.holes = [] ∨ r = .error .interrupted ∨ (∃ e, r = .error (.unforeseen e)) ∨
    ∃ holes, r = .error (.failed (Toolkit.stillOpen holes))

/-- What is left to do when all holes are closed is quiet. -/
theorem on_allClosed (d : Desk) (opened : Except Halt Unit) (s : TaskState) :
    ∃ r t, (do
        if endedInOrder opened then
          d.audit (.holesPlugged d.surroundings.stamp (d.ending true))
        Task.resume opened
        d.console.say .success "All holes closed" : Task Unit).on s = (r, t) ∧
      Quiet s.toSession t.toSession := by
  have finish : ∀ s : TaskState, ∃ r t, (do
      Task.resume opened
      d.console.say .success "All holes closed" : Task Unit).on s = (r, t) ∧
        Quiet s.toSession t.toSession := by
    intro s
    rw [Task.on_bind, Task.on_resume]
    cases opened with
    | error h => exact ⟨_, s, rfl, .refl _⟩
    | ok u =>
      obtain ⟨t, ht, quiet⟩ := Task.on_say d.console .success "All holes closed" s
      exact ⟨_, t, ht, quiet⟩
  cases endedInOrder opened with
  | false => exact finish s
  | true =>
    obtain ⟨r, t, ht, quiet, -⟩ :=
      d.on_audit (.holesPlugged d.surroundings.stamp (d.ending true)) s
    simp only [if_true]
    rw [Task.on_bind, ht]
    cases r with
    | error h => exact ⟨_, t, rfl, quiet⟩
    | ok u =>
      obtain ⟨r, u, hu, quiet'⟩ := finish t
      exact ⟨r, u, hu, quiet.trans quiet'⟩

/-- Closing keeps a prepared session held. -/
theorem on_closeAfter (live : d.toolkit.executor.dryRun = false) (opened : Except Halt Unit)
    {s : TaskState} (prepared : Prepared s.toSession) :
    ∃ r t, (d.closeAfter opened).on s = (r, t) ∧ Held t.toSession ∧ EndsWell r t.toSession := by
  obtain ⟨q, t, ht, course⟩ := d.toolkit.on_plugAll s.toSession
  have held : Held t := prepared.held.pluggingEach live course s.registry.nodup fun h hs =>
    ⟨hs, prepared.valid h hs, prepared.holes h⟩
  rw [closeAfter]
  simp only [Task.on_bind, Task.on_attempt, Task.on_lift, ht]
  match q with
  | .error x =>
    obtain rfl : x = .interrupted := course.error_eq
    exact ⟨_, { s with toSession := t }, rfl, held, Or.inr (Or.inl rfl)⟩
  | .ok () =>
    rw [Registry.pluggedAll]
    cases hempty : t.registry.holes.isEmpty with
    | false =>
      obtain ⟨r, u, hu, quiet, hr⟩ := d.on_audit (.holesPlugged d.surroundings.stamp .failure
        (Toolkit.stillOpen t.registry.holes).remaining
        (some (Toolkit.stillOpen t.registry.holes).message)) { s with toSession := t }
      simp only [Bool.false_eq_true, if_false, Except.mapError, Halt.ofStop, Task.on_bind, hu]
      rcases hr with rfl | ⟨e, rfl⟩
      · exact ⟨_, u, rfl, held.quiet quiet, Or.inr (Or.inr (Or.inr ⟨_, rfl⟩))⟩
      · exact ⟨_, u, rfl, held.quiet quiet, Or.inr (Or.inr (Or.inl ⟨e, rfl⟩))⟩
    | true =>
      -- Nothing is tracked any more, and what is left to do is quiet.
      have hnil : t.registry.holes = [] := List.isEmpty_iff.1 hempty
      obtain ⟨r, u, hu, quiet⟩ := on_allClosed d opened { s with toSession := t }
      refine ⟨r, u, hu, held.quiet quiet, Or.inl ?_⟩
      rw [quiet.same.registry]
      exact hnil

/-- A hold of holes leaves a running session held. -/
theorem on_hold (live : d.toolkit.executor.dryRun = false) (ports : List (Protocol × Int))
    (interface : String) {s : TaskState} (running : Running s.toSession) :
    ∃ r t, (d.hold ports interface).on s = (r, t) ∧ Held t.toSession ∧
      EndsWell r t.toSession := by
  obtain ⟨q, t, ht, prepared⟩ := on_openAndWait live interface ports running
  obtain ⟨r, u, hu, held, ends⟩ := on_closeAfter live q prepared
  refine ⟨r, u, ?_, held, ends⟩
  rw [hold, Task.on_bind, Task.on_attempt, ht]
  exact hu

end Desk

/-- A session in which nothing happened is running. -/
theorem running_fresh (always : Bool) : Running { ipv6 := always } := by
  refine ⟨⟨?_, ?_, fun h => .fresh ?_ rfl⟩, fun h _ => rfl⟩
  · intro e he
    cases he
  · intro h tracked
    cases tracked
  · intro tracked
    cases tracked

/-- How a call that holds holes can end: with nothing tracked, by an interrupt, by an event that it
does not know, or with the exit code of holes that are still open. -/
def CallEnds (r : Except Halt Unit) (t : Session) : Prop :=
  t.registry.holes = [] ∨ r = .error .interrupted ∨ (∃ e, r = .error (.unforeseen e)) ∨
    r = .error (.exit (FailureKind.teardown []).exitCode)

variable {w : Surroundings} {files : Files.Tree} {f : Flags} {settings : Config.InForce}

/-- Who may hold holes and has settings that can be loaded holds them as one operation, unless none
is asked for, and a failure is reported. -/
theorem Task.on_hold (allowed : w.root = true ∨ f.dryRun = true)
    (loads : Config.InForce.load files w.environment f.config = .ok settings)
    (ports : List (Protocol × Int)) (interface : String) :
    let s : TaskState :=
      { ipv6 := settings.machine.firewall.ipv6AlwaysEnabled, files := files }
    let p := ((Desk.ofSettings w f settings).hold ports interface).on
      { s with trail := s.trail.enter w.token "hole_hold" }
    (Task.hold w f ports interface).on { files } =
      reported (if ports.isEmpty then (.error (.failed noPorts), s)
        else (p.1, { p.2 with trail := p.2.trail.leave })) := by
  intro s p
  have hopen : (Desk.open w f).on { files } = (.ok (Desk.ofSettings w f settings), s) :=
    Desk.on_open loads
  have hroot : (Desk.ofSettings w f settings).requireRoot.on s = (.ok (), s) :=
    Desk.on_requireRoot allowed s
  rw [Task.hold, on_bind, hopen]
  simp only [on_bind]
  rw [hroot]
  simp only
  rw [on_handled_reported]
  cases ports.isEmpty with
  | true => rfl
  | false => rfl

/-- The task of holding holes leaves a held session. -/
theorem on_task_hold (root : w.root = true) (live : f.dryRun = false)
    (loads : Config.InForce.load files w.environment f.config = .ok settings)
    (ports : List (Protocol × Int)) (interface : String) :
    ∃ r t, (Task.hold w f ports interface).on { files := files } = (r, t) ∧ Held t.toSession ∧
      CallEnds r t.toSession := by
  let d := Desk.ofSettings w f settings
  let s : TaskState :=
    { ipv6 := settings.machine.firewall.ipv6AlwaysEnabled, files := files }
  obtain ⟨q, t, ht, held, ends⟩ := Desk.on_hold (d := d) live ports interface
    (s := { s with trail := s.trail.enter w.token "hole_hold" }) (running_fresh _)
  rw [Task.on_hold (Or.inl root) loads ports interface, ht]
  cases ports.isEmpty with
  | true =>
    obtain ⟨shown, hreported⟩ := reported_eq (.error (.failed noPorts)) s
    exact ⟨_, _, hreported, (running_fresh _).held.quiet ⟨rfl, rfl, rfl⟩, Or.inl rfl⟩
  | false =>
    obtain ⟨shown, hreported⟩ := reported_eq q { t with trail := t.trail.leave }
    refine ⟨Halt.reported q, _, hreported, held.quiet ⟨rfl, rfl, rfl⟩, ?_⟩
    rcases ends with hnil | rfl | ⟨e, rfl⟩ | ⟨holes, rfl⟩
    · exact Or.inl hnil
    · exact Or.inr (Or.inl rfl)
    · exact Or.inr (Or.inr (Or.inl ⟨e, rfl⟩))
    · exact Or.inr (Or.inr (Or.inr rfl))

end Task

/-- What was answered about a rule is on record among all exchanges. -/
theorem kept_about_iff {m : Ledger} {es : List Exchange} {tracked : Prop} {rule : Rule} :
    Kept m (about rule es) tracked rule ↔ Kept m es tracked rule := by
  have habout : ∀ (f : Filter) (verb : Verb) (r : Reply),
      Answered (about rule es) (.inFilter f verb rule) r ↔ Answered es (.inFilter f verb rule) r :=
    fun f verb r => answered_about (c := .inFilter f verb rule)
  simp only [kept_iff, habout]

/-- Let root hold holes open, not in a dry run and with settings that can be loaded, and let the call
end with another exit code than that of holes that are still open. The filters keep what they kept
before exactly when `Kept` is true of every hole. If holes are still tracked, the call was
interrupted, or a fault of the journal's file hid them. -/
theorem rules_after_hold {w : Surroundings} {files : Files.Tree} {words : List String} {f : Flags}
    {ports : List (Protocol × Int)} {interface : String} {settings : Config.InForce}
    (reads : CommandLine.read files words = .request (.hold f ports interface))
    (root : w.root = true) (live : f.dryRun = false)
    (loads : Config.InForce.load files w.environment f.config = .ok settings)
    (ended : (call w files words).1.code ≠ (FailureKind.teardown []).exitCode) (m : Ledger) :
    let s := (call w files words).2
    (m.after s.exchanges = m ↔ ∀ h : Hole, Kept m s.exchanges (h ∈ s.registry) h.rule) ∧
      (s.registry.holes = [] ∨ (call w files words).1 = .exit CallEnd.interruptedCode ∨
        ∃ e, (call w files words).1 = .escaped (.unforeseen e)) := by
  obtain ⟨r, t, ht, held, ends⟩ := on_task_hold root live loads ports interface
  have hcall : call w files words = (CallEnd.ofTask r, t) := by
    rw [call, reads]
    exact congrArg (fun p : Except Halt Unit × TaskState => (CallEnd.ofTask p.1, p.2)) ht
  rw [hcall] at ended ⊢
  constructor
  · rw [held.after_eq_iff]
    exact forall_congr' fun h => kept_about_iff
  · rcases ends with hnil | rfl | ⟨e, rfl⟩ | rfl
    · exact Or.inl hnil
    · exact Or.inr (Or.inl rfl)
    · exact Or.inr (Or.inr ⟨e, rfl⟩)
    · exact absurd rfl ended

/-- Root on a system that follows a script. -/
def Surroundings.scripted (answers : List Answer) : Surroundings where
  respond := .scripted answers
  stamp := ⟨0, ""⟩
  token := fun _ => ""

/-- A machine on which a file stands in the way of the journal. -/
def Files.Tree.withoutJournal : Files.Tree where
  entries := [(["var"], .directory), (["var", "log"], .directory),
    (["var", "log", "fwd"], .file .empty)]

/-- A hold of two holes that nothing disturbs, over filters that keep nothing yet. -/
theorem rules_after_undisturbed_hold :
    let words := ["hole", "hold", "--tcp", "22", "--udp", "53"]
    let s := (call (.scripted []) .withoutJournal words).2
    Ledger.empty.after s.exchanges = Ledger.empty ↔
      ∀ h : Hole, Kept .empty s.exchanges (h ∈ s.registry) h.rule := by
  have reads : CommandLine.read .withoutJournal ["hole", "hold", "--tcp", "22", "--udp", "53"] =
      .request (.hold {} [(.tcp, 22), (.udp, 53)] "") := by
    decide +kernel
  have ended : (call (.scripted []) .withoutJournal
      ["hole", "hold", "--tcp", "22", "--udp", "53"]).1.code ≠
        (FailureKind.teardown []).exitCode := by
    decide +kernel
  have hok : (Config.InForce.load .withoutJournal [] none).isOk = true := by decide +kernel
  cases loads : Config.InForce.load .withoutJournal [] none with
  | error e =>
    rw [loads] at hok
    cases hok
  | ok settings => exact (rules_after_hold reads rfl rfl loads ended .empty).1

/-- The user interrupts a hold while the secondary filter is asked to take the rule. The call says
that all holes are closed and ends as a success, and the primary filter keeps the rule. -/
theorem hold_leaves_rule :
    let words := ["hole", "hold", "--tcp", "22"]
    let c := call (.scripted [.silent, .interrupted]) .withoutJournal words
    CommandLine.read .withoutJournal words = .request (.hold {} [(.tcp, 22)] "") ∧
      (Config.InForce.load .withoutJournal [] none).isOk = true ∧ c.1 = .exit 0 ∧
      .message .success "All holes closed" ∈ c.2.shown ∧
      Ledger.empty.after c.2.exchanges (.filter .primary) = {Hole.rule ⟨.tcp, 22, ""⟩} := by
  decide +kernel

end Pinhole
