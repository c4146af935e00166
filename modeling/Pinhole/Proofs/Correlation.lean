import Mathlib.Data.List.Nodup
import Pinhole.Proofs.Task

/-!
# Events carry the block they are logged in

A `Script` is what can be made of events and of audited operations: they are nested, they follow on
one another, and they are left early and the reason is handled anywhere. While a script runs, the
trail says which identifier is in force; it changes with every operation that is entered or left.
The text of a script says the same without any state: an event belongs to the innermost operation
that is written around it. `Script.course` reads a script in that way, and a run does just what is
read (`events_carry_innermost_block`).
-/

namespace Pinhole

open Audit

/-! ## Scripts -/

/-- A program that logs events in blocks, each of them one audited operation. -/
inductive Script
  | skip
  | log (e : Event)
  | stop (h : Halt)
  | next (first rest : Script)
  | block (operation : String) (body : Script)
  | guarded (body : Script) (handler : Halt → Script)

/-- Runs a script at a desk. -/
def Script.run (d : Desk) : Script → Task Unit
  | .skip => return ()
  | .log e => d.audit e
  | .stop h => throw h
  | .next first rest => do
    first.run d
    rest.run d
  | .block operation body => Task.correlated d.surroundings operation (body.run d)
  | .guarded body handler => do
    match ← Task.attempt (body.run d) with
    | .ok () => return ()
    | .error h => (handler h).run d

/-! ## What is read off a script -/

/-- A block that is entered: blocks are numbered as they are entered, so no block has the number of
another one. -/
structure Block where
  number : Nat
  operation : String
  deriving DecidableEq, Repr

/-- The identifier of a block. -/
def Block.id (token : Nat → String) (b : Block) : String := b.operation ++ "-" ++ token b.number

/-- An event that is logged, and the innermost block around it. -/
structure Entry where
  event : Event
  block? : Option Block

/-- The event as it is stored: with the identifier of its block, or else with what is in force
outside of all blocks. -/
def Entry.stored (token : Nat → String) (outside : Option String) (e : Entry) : Event :=
  { e.event with correlation := (e.block?.map (Block.id token)).or outside }

/-- What a script comes to. -/
structure Course where
  /-- The events in the order in which they are logged. -/
  entries : List Entry := []
  /-- The blocks in the order in which they are entered. -/
  blocks : List Block := []
  /-- What the journal warns of. -/
  warnings : List String := []
  files : Files.Tree
  ending : Except Halt Unit := .ok ()

namespace Course

/-- One course after the other. -/
def append (c c' : Course) : Course where
  entries := c.entries ++ c'.entries
  blocks := c.blocks ++ c'.blocks
  warnings := c.warnings ++ c'.warnings
  files := c'.files
  ending := c'.ending

/-- The course of what is done inside a block. -/
def enter (b : Block) (c : Course) : Course := { c with blocks := b :: c.blocks }

end Course

section Course

variable (j : Journal) (token : Nat → String) (outside : Option String)

/-- An event is logged. The journal may warn, and ends the script only with a fault that the system
knows nothing of. -/
def Entry.course (e : Entry) (files : Files.Tree) : Course :=
  match j.log (e.stored token outside) files with
  | (.ok warning?, t) => { entries := [e], warnings := warning?.toList, files := t }
  | (.error f, t) => { entries := [e], files := t, ending := .error (.unforeseen (.file f)) }

/-- The course of a script that is written inside a block, or outside of all blocks. So many blocks
were entered before. -/
def Script.course : Script → Option Block → Nat → Files.Tree → Course
  | .skip, _, _, files => { files }
  | .log e, block?, _, files => Entry.course j token outside ⟨e, block?⟩ files
  | .stop h, _, _, files => { files, ending := .error h }
  | .next first rest, block?, n, files =>
    let c := first.course block? n files
    match c.ending with
    | .ok () => c.append (rest.course block? (n + c.blocks.length) c.files)
    | .error _ => c
  | .block operation body, _, n, files =>
    let b : Block := ⟨n + 1, operation⟩
    (body.course (some b) (n + 1) files).enter b
  | .guarded body handler, block?, n, files =>
    let c := body.course block? n files
    match c.ending with
    | .ok () => c
    | .error h => c.append ((handler h).course block? (n + c.blocks.length) c.files)

end Course

/-- The state after a course. The trail has the same blocks open, and remembers how many were
entered. -/
def Course.after (d : Desk) (c : Course) (s : TaskState) : TaskState :=
  { s with
    shown := s.shown ++ c.warnings.flatMap fun text => d.console.visible (.message .warn text)
    files := c.files
    trail := { s.trail with issued := s.trail.issued + c.blocks.length } }

/-- Some events are stored one after the other, whatever becomes of each. -/
def Audit.Journal.logEach (j : Journal) (es : List Event) (t : Files.Tree) : Files.Tree :=
  es.foldl (fun t e => (j.log e t).2) t

/-! ## A run is what is read -/

/-- Logging an event takes the course of one entry, whose block is the one with the identifier in
force. -/
theorem Desk.on_audit_course (d : Desk) (e : Event) (block? : Option Block) (s : TaskState)
    {outside : Option String}
    (force : s.trail.current? = (block?.map (Block.id d.surroundings.token)).or outside) :
    let c := Entry.course d.journal d.surroundings.token outside ⟨e, block?⟩ s.files
    (d.audit e).on s = (c.ending, c.after d s) := by
  have stored : e.under s.trail =
      (⟨e, block?⟩ : Entry).stored d.surroundings.token outside := by
    rw [Event.under, force]
    rfl
  rcases hlog : d.journal.log (e.under s.trail) s.files with ⟨r, files⟩
  have logged := hlog
  rw [stored] at logged
  show (d.audit e).on s = ((Entry.course _ _ _ _ _).ending, (Entry.course _ _ _ _ _).after d s)
  rw [audit, Task.on_bind, Task.on_get, Entry.course]
  simp only [hlog, logged]
  cases r with
  | error f =>
    simp only [Course.after, List.flatMap_nil, List.append_nil]
    rfl
  | ok warning? =>
    -- A journal that could not store the event may warn of it; only then there is something to see.
    cases warning? with
    | none =>
      simp only [Course.after, Option.toList_none, List.flatMap_nil, List.append_nil]
      rfl
    | some text =>
      refine (Task.on_say_visible d.console .warn text { s with files }).trans ?_
      simp only [Course.after, Option.toList_some, List.flatMap_singleton]
      rfl

/-- An operation is open while its task runs, and not afterwards, however the task ends. -/
theorem Task.on_correlated {α : Type} (w : Surroundings) (operation : String) (x : Task α)
    (s : TaskState) :
    (correlated w operation x).on s =
      ((x.on { s with trail := s.trail.enter w.token operation }).1,
        { (x.on { s with trail := s.trail.enter w.token operation }).2 with
          trail := (x.on { s with trail := s.trail.enter w.token operation }).2.trail.leave }) :=
  rfl

/-- One course after the other leads where they lead one after the other. -/
theorem Course.after_append (d : Desk) (c c' : Course) (s : TaskState) :
    c'.after d (c.after d s) = (c.append c').after d s := by
  simp only [after, append, List.flatMap_append, List.append_assoc, List.length_append,
    Nat.add_assoc]

/-- A script runs as it is read, whatever is in force outside of it. -/
theorem Script.on_run (d : Desk) (p : Script) {outside : Option String} {block? : Option Block}
    {n : Nat} {s : TaskState} {c : Course} (issued : s.trail.issued = n)
    (force : s.trail.current? = (block?.map (Block.id d.surroundings.token)).or outside)
    (reads : p.course d.journal d.surroundings.token outside block? n s.files = c) :
    (p.run d).on s = (c.ending, c.after d s) := by
  induction p generalizing block? n s c with
  | skip =>
    subst reads
    simp [Course.after, course, run]
  | log e =>
    subst reads
    exact d.on_audit_course e block? s force
  | stop h =>
    subst reads
    simp [Course.after, course, run]
  | next first rest ihfirst ihrest =>
    have hfirst := ihfirst issued force rfl
    rw [course] at reads
    generalize first.course _ _ _ _ _ _ = b at hfirst reads
    rw [run, Task.on_bind, hfirst]
    cases hend : b.ending with
    | error h =>
      simp only [hend] at reads ⊢
      rw [← reads, hend]
    | ok u =>
      simp only [hend] at reads ⊢
      rw [ihrest (s := b.after d s) (congrArg (· + b.blocks.length) issued) force rfl,
        Course.after_append, ← reads]
      rfl
  | block operation body ih =>
    -- In the block, its own identifier is in force, whatever was before.
    have inner : (s.trail.enter d.surroundings.token operation).current? =
        (Option.map (Block.id d.surroundings.token) (some ⟨n + 1, operation⟩)).or outside := by
      rw [Trail.current?_enter, Trail.nextId, issued]
      rfl
    have entered := ih (s := { s with trail := s.trail.enter d.surroundings.token operation })
      (congrArg (· + 1) issued) inner rfl
    rw [run, Task.on_correlated, entered, ← reads, course]
    generalize body.course _ _ _ _ _ _ = b
    refine Prod.ext rfl ?_
    show ({ s with
      shown := _, files := _, trail := ⟨s.trail.scopes, s.trail.issued + 1 + b.blocks.length⟩ } :
        TaskState) = { s with
      shown := _, files := _, trail := ⟨s.trail.scopes, s.trail.issued + (b.blocks.length + 1)⟩ }
    rw [Nat.add_assoc, Nat.add_comm 1]
    rfl
  | guarded body handler ihbody ihhandler =>
    have hbody := ihbody issued force rfl
    rw [course] at reads
    generalize body.course _ _ _ _ _ _ = b at hbody reads
    rw [run, Task.on_bind, Task.on_attempt, hbody]
    cases hend : b.ending with
    | ok u =>
      simp only [hend] at reads ⊢
      rw [← reads, hend]
      rfl
    | error h =>
      simp only [hend] at reads ⊢
      rw [ihhandler h (s := b.after d s) (congrArg (· + b.blocks.length) issued) force rfl,
        Course.after_append, ← reads]
      rfl

/-! ## What a course is like -/

/-- What is true of everything that is read off a script. -/
structure Course.Orderly (j : Journal) (token : Nat → String) (outside : Option String)
    (block? : Option Block) (n : Nat) (files : Files.Tree) (c : Course) : Prop where
  numbered : c.blocks.map (·.number) = List.range' (n + 1) c.blocks.length
  placed : ∀ e ∈ c.entries, e.block? = block? ∨ ∃ b ∈ c.blocks, e.block? = some b
  stored : c.files = j.logEach (c.entries.map (Entry.stored token outside)) files

section Orderly

variable {j : Journal} {token : Nat → String} {outside : Option String} {block? : Option Block}
  {n : Nat} {t : Files.Tree}

namespace Course.Orderly

/-- Nothing is logged. -/
theorem nothing (ending : Except Halt Unit) :
    Orderly j token outside block? n t { files := t, ending } where
  numbered := rfl
  placed _ he := absurd he List.not_mem_nil
  stored := rfl

/-- One event is logged. -/
theorem entry (e : Event) :
    Orderly j token outside block? n t (Entry.course j token outside ⟨e, block?⟩ t) := by
  rcases hlog : j.log ((⟨e, block?⟩ : Entry).stored token outside) t with ⟨r, u⟩
  have files : u = j.logEach [(⟨e, block?⟩ : Entry).stored token outside] t :=
    (congrArg Prod.snd hlog).symm
  have placed : ∀ x ∈ [(⟨e, block?⟩ : Entry)],
      x.block? = block? ∨ ∃ b ∈ ([] : List Block), x.block? = some b :=
    List.forall_mem_singleton.2 (Or.inl rfl)
  rw [Entry.course, hlog]
  cases r with
  | ok warning? => exact ⟨rfl, placed, files⟩
  | error f => exact ⟨rfl, placed, files⟩

theorem append {c c' : Course} (h : c.Orderly j token outside block? n t)
    (h' : c'.Orderly j token outside block? (n + c.blocks.length) c.files) :
    (c.append c').Orderly j token outside block? n t where
  numbered := by
    show (c.blocks ++ c'.blocks).map _ = List.range' _ (c.blocks ++ c'.blocks).length
    rw [List.map_append, h.numbered, h'.numbered, List.length_append, ← List.range'_append_1,
      Nat.add_right_comm n 1]
  placed := by
    intro e he
    rcases List.mem_append.1 he with he | he
    · exact (h.placed e he).imp_right fun ⟨b, hb, same⟩ => ⟨b, List.mem_append_left _ hb, same⟩
    · exact (h'.placed e he).imp_right fun ⟨b, hb, same⟩ => ⟨b, List.mem_append_right _ hb, same⟩
  stored := by
    show c'.files = j.logEach ((c.entries ++ c'.entries).map _) t
    rw [h'.stored, h.stored, List.map_append, Journal.logEach, Journal.logEach, Journal.logEach,
      List.foldl_append]

/-- Inside a block whose number is the next one. -/
theorem enter {c : Course} {operation : String}
    (h : c.Orderly j token outside (some ⟨n + 1, operation⟩) (n + 1) t) :
    (c.enter ⟨n + 1, operation⟩).Orderly j token outside block? n t where
  numbered := by
    show (n + 1) :: c.blocks.map _ = List.range' _ (c.blocks.length + 1)
    rw [h.numbered, List.range'_succ]
  placed := by
    intro e he
    rcases h.placed e he with same | ⟨b, hb, same⟩
    · exact Or.inr ⟨_, List.mem_cons_self, same⟩
    · exact Or.inr ⟨b, List.mem_cons_of_mem _ hb, same⟩
  stored := h.stored

end Course.Orderly

/-- What is read off a script is orderly. -/
theorem Script.orderly_course (p : Script) :
    (p.course j token outside block? n t).Orderly j token outside block? n t := by
  induction p generalizing block? n t with
  | skip => exact .nothing _
  | log e => exact .entry e
  | stop h => exact .nothing _
  | next first rest ihfirst ihrest =>
    have hfirst : (first.course j token outside block? n t).Orderly j token outside block? n t :=
      ihfirst
    rw [course]
    cases (first.course j token outside block? n t).ending with
    | ok u => exact hfirst.append ihrest
    | error h => exact hfirst
  | block operation body ih => exact ih.enter
  | guarded body handler ihbody ihhandler =>
    have hbody : (body.course j token outside block? n t).Orderly j token outside block? n t :=
      ihbody
    rw [course]
    cases (body.course j token outside block? n t).ending with
    | ok u => exact hbody
    | error h => exact hbody.append (ihhandler h)

/-- Blocks that are told apart by their identifiers are told apart by what is stored. -/
theorem Entry.correlation_eq_iff {blocks : List Block} {e e' : Entry}
    (distinct : (blocks.map (Block.id token)).Nodup) (h : ∀ b, e.block? = some b → b ∈ blocks)
    (h' : ∀ b, e'.block? = some b → b ∈ blocks) :
    (e.stored token none).correlation = (e'.stored token none).correlation ↔
      e.block? = e'.block? := by
  show (e.block?.map _).or none = (e'.block?.map _).or none ↔ _
  rw [Option.or_none, Option.or_none]
  refine ⟨fun same => ?_, fun same => by rw [same]⟩
  cases hb : e.block? with
  | none =>
    rw [hb] at same
    exact (Option.map_eq_none_iff.1 same.symm).symm
  | some b =>
    rw [hb] at same
    obtain ⟨b', hb', id⟩ := Option.map_eq_some_iff.1 same.symm
    rw [hb', List.inj_on_of_nodup_map distinct (h b hb) (h' b' hb') id.symm]

end Orderly

/-- Let a script run while no operation is open. What is read off it, that is, to which block each
event belongs, is what happens:

* the script ends as it is read, the journal is made of just the events that are read, each with the
  identifier of the innermost block around it or with none outside of all blocks, and no operation
  is open that was not before;
* every block that an event belongs to was entered, and blocks are numbered as they are entered;
* whatever is done in a block, and whatever is open before, the same operations are open after it,
  so the same identifier is in force, also if the block is left early;
* if the blocks that are entered have identifiers of their own, two events have the same identifier
  exactly if they belong to the same block. -/
theorem events_carry_innermost_block (d : Desk) (p : Script) {s : TaskState}
    (outside : s.trail.current? = none) :
    let token := d.surroundings.token
    let c := p.course d.journal token none none s.trail.issued s.files
    ((p.run d).on s = (c.ending, c.after d s) ∧
      c.files = d.journal.logEach (c.entries.map (Entry.stored token none)) s.files) ∧
    ((∀ e ∈ c.entries, ∀ b, e.block? = some b → b ∈ c.blocks) ∧
      c.blocks.map (·.number) = List.range' (s.trail.issued + 1) c.blocks.length) ∧
    (∀ (operation : String) (body : Script) (t : TaskState),
      (((Script.block operation body).run d).on t).2.trail.scopes = t.trail.scopes) ∧
    ((c.blocks.map (Block.id token)).Nodup → ∀ e ∈ c.entries, ∀ e' ∈ c.entries,
      ((e.stored token none).correlation = (e'.stored token none).correlation ↔
        e.block? = e'.block?)) := by
  intro token c
  have orderly : c.Orderly d.journal token none none s.trail.issued s.files := p.orderly_course
  have entered : ∀ e ∈ c.entries, ∀ b, e.block? = some b → b ∈ c.blocks := by
    intro e he b hb
    rcases orderly.placed e he with none | ⟨b', hb', same⟩
    · rw [hb] at none
      cases none
    · obtain rfl := Option.some.inj (same.symm.trans hb)
      exact hb'
  have runs : (p.run d).on s = (c.ending, c.after d s) := by
    apply p.on_run d rfl _ rfl
    exact outside
  refine ⟨⟨runs, orderly.stored⟩, ⟨entered, orderly.numbered⟩, ?_, ?_⟩
  · intro operation body t
    -- Whatever is open before counts as what lies outside of the block.
    have around : t.trail.current? =
        (Option.map (Block.id token) (none : Option Block)).or t.trail.current? := rfl
    rw [(Script.block operation body).on_run d rfl around rfl]
    rfl
  · intro distinct e he e' he'
    exact Entry.correlation_eq_iff distinct (entered e he) (entered e' he')

/-- A script with a block in a block and a block after them. The inner block is left early, which is
handled in the outer one, and so is the outer one. -/
def Script.nested : Script :=
  let event (text : String) : Event := .holesPlugged ⟨0, ""⟩ .success [] (some text)
  .next (.log (event "before")) <|
  .next (.guarded
    (.block "hold" <|
      .next (.log (event "opened")) <|
      .next (.guarded (.block "steer" (.next (.log (event "steered")) (.stop .interrupted)))
        fun _ => .log (event "interrupted")) <|
      .stop (.exit 3))
    fun _ => .log (event "between")) <|
  .block "hold" (.log (event "again"))

/-- Three blocks are entered, and each of six events carries the innermost one. -/
theorem nested_blocks :
    let d : Desk := { surroundings := { respond := .silent, stamp := ⟨0, ""⟩, token := toString }
                      flags := {}, toolkit := .ofSettings { console := {}, respond := .silent } {}
                      journal := {} }
    let c := Script.nested.course d.journal toString none none 0 {}
    ((Script.nested.run d).on {} = (.ok (), c.after d {}) ∧
      c.files = d.journal.logEach (c.entries.map (Entry.stored toString none)) {} ∧
      c.warnings = []) ∧
    c.entries.map (fun e => (e.stored toString none).correlation) =
      [none, some "hold-1", some "steer-2", some "hold-1", none, some "hold-3"] ∧
    ∀ e ∈ c.entries, ∀ e' ∈ c.entries,
      ((e.stored toString none).correlation = (e'.stored toString none).correlation ↔
        e.block? = e'.block?) := by
  intro d c
  obtain ⟨⟨run, files⟩, -, -, told⟩ :=
    events_carry_innermost_block d Script.nested (s := {}) rfl
  have ⟨ending, stored, distinct, correlations⟩ : c.ending = .ok () ∧ c.warnings = [] ∧
      (c.blocks.map (Block.id toString)).Nodup ∧
      c.entries.map (fun e => (e.stored toString none).correlation) =
        [none, some "hold-1", some "steer-2", some "hold-1", none, some "hold-3"] := by
    decide +kernel
  refine ⟨⟨?_, files, stored⟩, correlations, told distinct⟩
  rw [← ending]
  exact run

end Pinhole
