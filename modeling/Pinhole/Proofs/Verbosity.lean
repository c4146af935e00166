import Pinhole.Proofs.Preview

/-!
# What is shown changes nothing

A toolkit looks at nothing that it has shown. So it may be watched on two consoles at once: if they
show alike, under a relation of sessions that spawning and tracking keep, then all that the toolkit
does on them is alike (`Watched.paired`).

The first use is verbosity. At a lower verbosity everything is done that is done at a greater one,
and of the items shown there exactly those are left that the lower one still shows.
-/

namespace Pinhole

open Pinhole.Action

/-! ## Two consoles -/

/-- The same toolkit on another console. -/
def Toolkit.seenOn (k : Toolkit) (c : Console) : Toolkit :=
  { k with executor := { k.executor with console := c } }

/-- Two consoles show alike, under a relation of sessions that does not depend on what is shown in
any other way. -/
structure Watched (R : Session → Session → Prop) (c d : Console) : Prop where
  shows : ∀ item, Alike R (c.show item) (d.show item)
  spawned : ∀ {s s'}, R s s' → s'.spawned = s.spawned
  same : ∀ {s s'}, R s s' → SameHoles s s'
  spawn : ∀ {s s'}, R s s' → ∀ p,
    R { s with spawned := s.spawned ++ [p] } { s' with spawned := s'.spawned ++ [p] }
  learn : ∀ {s s'}, R s s' → R { s with ipv6 := true } { s' with ipv6 := true }
  track : ∀ {s s'}, R s s' → ∀ g, R { s with registry := g } { s' with registry := g }

namespace Watched

variable {R : Session → Session → Prop} {x : Executor} {k : Toolkit} {d : Console}

section Executor

variable (w : Watched R x.console d)

include w

/-- The system gives one answer on both sides. -/
theorem spawns (c : Command) (argv : List String) (timeout : Option Int) (capture : Bool) :
    Alike R (x.spawn c argv timeout capture)
      ({ x with console := d }.spawn c argv timeout capture) := by
  intro s s' related
  rw [Executor.on_spawn, Executor.on_spawn]
  have answer : x.respond s'.spawned argv = x.respond s.spawned argv := by rw [w.spawned related]
  dsimp only
  rw [answer]
  exact ⟨rfl, w.spawn related _⟩

/-- A command is run alike. -/
theorem runs (c : Command) (o : RunOptions) :
    Alike R (x.run c o) ({ x with console := d }.run c o) := by
  have hargv : ({ x with console := d } : Executor).argv = x.argv := rfl
  unfold Executor.run
  dsimp only
  rw [hargv]
  split
  · refine alike_bind (w.shows _) fun _ => alike_bind (w.shows _) fun _ => alike_ite ?_ ?_
    · exact alike_bind (w.shows _) fun _ => alike_pure _
    · refine alike_bind (w.spawns _ _ _ _) fun _ => ?_
      split
      · exact alike_pure _
      · exact alike_throw _
  · refine alike_bind (w.shows _) fun _ => alike_ite ?_ ?_
    · exact alike_bind (w.shows _) fun _ => alike_pure _
    · refine alike_bind (w.spawns _ _ _ _) fun _ => ?_
      split
      · exact alike_pure _
      · exact alike_throw _

/-- A failed command is reported alike. -/
theorem reports (f : Failure) : Alike R (x.report f) ({ x with console := d }.report f) := by
  unfold Executor.report
  refine alike_bind (w.shows _) fun _ => alike_bind ?_ fun _ => alike_pure _
  exact alike_forIn _ fun detail => w.shows _

/-- The status of a command is the same, and is told alike. -/
theorem runsStatus (c : Command) (caps : List Capability) :
    Alike R (x.runStatus c caps) ({ x with console := d }.runStatus c caps) := by
  unfold Executor.runStatus
  refine alike_bind (alike_tryCatch ?_ fun e => ?_) fun result => ?_
  · exact alike_bind (w.runs c _) fun _ => alike_pure _
  · cases e with
    | interrupted => exact alike_throw _
    | failed f => exact alike_bind (w.reports f) fun _ => alike_pure _
  · cases result with
    | error status => exact alike_pure _
    | ok r =>
      exact alike_ite (alike_bind (w.shows _) fun _ => alike_pure _) (alike_pure _)

end Executor

/-- What a toolkit does on two consoles that show alike is paired. -/
theorem paired (w : Watched R k.executor.console d) : Paired R k (k.seenOn d) where
  paths := rfl
  mark := rfl
  table := rfl
  say _ _ := w.shows _
  apply _ := alike_bind (w.runsStatus _ _) fun _ => alike_pure _
  same := w.same
  learn := w.learn
  track := w.track

end Watched

/-! ## Two verbosities -/

/-- The verbosity that an item needs to be shown. Plain lines, tables and listings need none, and
what a dry run leaves undone is shown on every dry run. -/
def Item.needed : Item → Int
  | .message .debug _ => 3
  | .message .step _ | .message .info _ | .message .success _ => 1
  | .message .warn _ | .message .error _ | .message .hint _ => 0
  | .dryRun _ | .line _ | .verbatim _ | .table .. | .listing .. => 0

/-- A number brought into the range of verbosities. -/
def Verbosity.clamp (n : Int) : Int := max 0 (min n 3)

theorem Verbosity.clamp_mono {m n : Int} (le : m ≤ n) : clamp m ≤ clamp n := by
  unfold clamp
  omega

/-- An item needs the least verbosity at which items of its kind are shown. -/
theorem Item.rank_least (item : Item) : (item.least.rank : Int) = item.needed := by
  cases item with
  | message kind text => cases kind <;> rfl
  | _ => rfl

/-- No message on the error stream needs any verbosity. -/
theorem Item.needed_of_stream_err {item : Item} (h : item.stream = .err) : item.needed = 0 := by
  cases item with
  | message kind text => cases kind <;> first | rfl | cases h
  | _ => cases h

namespace Console

/-- Apart from what a dry run leaves undone, an item is shown at the verbosities that it needs. -/
theorem shows_ofInt_iff {item : Item} (plain : item.undone? = none) (v : Int) (dryRun : Bool) :
    shows ⟨.ofInt v, dryRun⟩ item = true ↔ item.needed ≤ Verbosity.clamp v := by
  rw [← item.rank_least, Verbosity.clamp, ← Verbosity.rank_ofInt, Int.ofNat_le]
  cases item with
  | dryRun text => cases plain
  | _ => simp [shows]

/-- What becomes visible at a verbosity is what becomes visible at a greater one and needs no more
than the lower one. -/
theorem visible_eq_filter {v₁ v₂ : Int} (le : v₁ ≤ v₂) (dryRun : Bool) (item : Item) :
    visible ⟨.ofInt v₁, dryRun⟩ item =
      (visible ⟨.ofInt v₂, dryRun⟩ item).filter (·.needed ≤ Verbosity.clamp v₁) := by
  cases hundone : item.undone? with
  | some text =>
    cases item with
    | dryRun text =>
      have kept : (0 : Int) ≤ Verbosity.clamp v₁ := Int.le_max_left ..
      cases dryRun <;> simp [visible, shows, Item.needed, kept]
    | _ => cases hundone
  | none =>
    have low := shows_ofInt_iff hundone v₁ dryRun
    have high := shows_ofInt_iff hundone v₂ dryRun
    have mono := Verbosity.clamp_mono le
    unfold visible
    by_cases kept : item.needed ≤ Verbosity.clamp v₁
    · rw [if_pos (low.2 kept), if_pos (high.2 (Int.le_trans kept mono))]
      simp [kept]
    · rw [if_neg fun shown => kept (low.1 shown)]
      split <;> simp [kept]

end Console

/-- A session at a lower verbosity next to one at a greater. -/
structure Quieter (v : Int) (s t : Session) : Prop where
  spawned : t.spawned = s.spawned
  same : SameHoles s t
  shown : s.shown = t.shown.filter (·.needed ≤ Verbosity.clamp v)

/-- The consoles of two verbosities show alike. -/
theorem watched_verbosity {v₁ v₂ : Int} (le : v₁ ≤ v₂) (dryRun : Bool) :
    Watched (Quieter v₁) ⟨.ofInt v₁, dryRun⟩ ⟨.ofInt v₂, dryRun⟩ where
  shows item := by
    intro s t h
    rw [Console.on_show_visible, Console.on_show_visible]
    refine ⟨rfl, h.spawned, ⟨h.same.registry, h.same.ipv6⟩, ?_⟩
    rw [List.filter_append, ← Console.visible_eq_filter le, ← h.shown]
  spawned h := h.spawned
  same h := h.same
  spawn h p := ⟨by rw [h.spawned], ⟨h.same.registry, h.same.ipv6⟩, h.shown⟩
  learn h := ⟨h.spawned, ⟨h.same.registry, rfl⟩, h.shown⟩
  track h g := ⟨h.spawned, ⟨rfl, h.same.ipv6⟩, h.shown⟩

/-- Verbosity changes only what is shown. After any calls, and whatever the system answers, the next
call gives back the same at two verbosities, the same processes have been spawned, the same holes are
tracked and as much is known of the secondary filter. The items shown at the lower verbosity are those
shown at the greater one without the ones that need more, so that nothing on the error stream ever
depends on it. -/
theorem verbosity_only_shows (f : Config.Firewall) {v₁ v₂ : Int} (le : v₁ ≤ v₂) (root : Bool)
    (respond : Responder) (dryRun : Bool) (calls : List Call) :
    let k := Toolkit.service f v₁ root respond dryRun
    let k' := Toolkit.service f v₂ root respond dryRun
    let s := k.serve calls { ipv6 := f.ipv6AlwaysEnabled }
    let t := k'.serve calls { ipv6 := f.ipv6AlwaysEnabled }
    (∀ wish c, k.returned s wish c = k'.returned t wish c) ∧ s.spawned = t.spawned ∧
      s.registry = t.registry ∧ s.ipv6 = t.ipv6 ∧
      s.shown = t.shown.filter (·.needed ≤ max 0 (min v₁ 3)) ∧
      s.shown.filter (·.stream = .err) = t.shown.filter (·.stream = .err) := by
  intro k k' s t
  have paired : Paired (Quieter v₁) k k' := (watched_verbosity le dryRun).paired
  have fresh : Quieter v₁ { ipv6 := f.ipv6AlwaysEnabled } { ipv6 := f.ipv6AlwaysEnabled } :=
    ⟨rfl, ⟨rfl, rfl⟩, rfl⟩
  have quieter : Quieter v₁ s t := paired.serve calls fresh
  refine ⟨fun wish c => (paired.returned quieter wish c).symm, quieter.spawned.symm,
    quieter.same.registry.symm, quieter.same.ipv6.symm, quieter.shown, ?_⟩
  rw [quieter.shown, List.filter_filter]
  refine List.filter_congr fun item _ => ?_
  by_cases err : item.stream = .err
  · have kept : (0 : Int) ≤ Verbosity.clamp v₁ := Int.le_max_left ..
    simp [err, Item.needed_of_stream_err err, kept]
  · simp [err]

/-- A punch that the primary filter refuses is reported alike at verbosities far out of range, to
those who debug with every command. -/
theorem quietest_run_of_refused_punch :
    let s := (Toolkit.service {} (-1) true (.scripted [.refusal]) false).serve
      [.punch .tcp (.int 22) ""] {}
    let t := (Toolkit.service {} 5 true (.scripted [.refusal]) false).serve
      [.punch .tcp (.int 22) ""] {}
    s.shown = t.shown.filter (·.needed ≤ 0) ∧ s.shown.length = 2 ∧ t.shown.length = 5 := by
  intro s t
  have le : (-1 : Int) ≤ 5 := by decide
  obtain ⟨-, -, -, -, shown, -⟩ := verbosity_only_shows {} le true (.scripted [.refusal]) false
    [.punch .tcp (.int 22) ""]
  exact ⟨shown, by decide +kernel, by decide +kernel⟩

end Pinhole
