import Pinhole.Proofs.Service

/-!
# Two runs side by side

Two actions are `Alike` under a relation of sessions if, begun in related sessions, they end in the
same way and leave related sessions behind. Alike parts make alike wholes, so two toolkits that show
things alike and ask for changes alike (`Paired`) do everything alike: `Paired.perform`.

A dry run is such a pair. What a toolkit on a dry run only shows, its `enacted` toolkit carries out
on a system on which every command works, and the two track the same holes all the time. So there is
a history of a dry run, too: `Toolkit.asked` is what was asked for, or would have been.
-/

namespace Pinhole

/-! ## Alike actions -/

namespace Action

variable {R : Session → Session → Prop} {α β : Type}

/-- From related sessions two actions end in the same way and lead to related sessions. -/
def Alike (R : Session → Session → Prop) (x y : Action α) : Prop :=
  ∀ ⦃s s' : Session⦄, R s s' → (y.on s').1 = (x.on s).1 ∧ R (x.on s).2 (y.on s').2

theorem alike_pure (a : α) : Alike R (pure a) (pure a) := fun _ _ h => ⟨rfl, h⟩

theorem alike_throw (e : Stop) : Alike R (throw e : Action α) (throw e) := fun _ _ h => ⟨rfl, h⟩

theorem alike_fail (f : Failure) : Alike R (fail f : Action α) (fail f) := fun _ _ h => ⟨rfl, h⟩

/-- Alike parts make alike wholes. -/
theorem alike_bind {x y : Action α} {f g : α → Action β} (h : Alike R x y)
    (rest : ∀ a, Alike R (f a) (g a)) : Alike R (x >>= f) (y >>= g) := by
  intro s s' related
  obtain ⟨hresult, hafter⟩ := h related
  rw [on_bind, on_bind]
  rcases hx : x.on s with ⟨r, t⟩
  rcases hy : y.on s' with ⟨r', t'⟩
  rw [hx, hy] at hresult hafter
  obtain rfl : r' = r := hresult
  cases r' with
  | ok a => exact rest a hafter
  | error e => exact ⟨rfl, hafter⟩

/-- Looking at related sessions, two actions may go on with what they see. -/
theorem alike_get {f g : Session → Action β} (h : ∀ s s', R s s' → Alike R (f s) (g s')) :
    Alike R (get >>= f) (get >>= g) := by
  intro s s' related
  rw [on_bind, on_bind, on_get, on_get]
  exact h s s' related related

theorem alike_modify {f g : Session → Session} (h : ∀ s s', R s s' → R (f s) (g s')) :
    Alike R (modify f) (modify g) :=
  fun s s' related => ⟨rfl, h s s' related⟩

theorem alike_ite {c : Prop} [Decidable c] {x y x' y' : Action α} (h : Alike R x y)
    (h' : Alike R x' y') : Alike R (if c then x else x') (if c then y else y') := by
  split
  · exact h
  · exact h'

/-- What is caught of alike actions is handled alike. -/
theorem alike_tryCatch {x y : Action α} {f g : Stop → Action α} (h : Alike R x y)
    (handled : ∀ e, Alike R (f e) (g e)) : Alike R (tryCatch x f) (tryCatch y g) := by
  intro s s' related
  obtain ⟨hresult, hafter⟩ := h related
  rw [on_tryCatch, on_tryCatch]
  rcases hx : x.on s with ⟨r, t⟩
  rcases hy : y.on s' with ⟨r', t'⟩
  rw [hx, hy] at hresult hafter
  obtain rfl : r' = r := hresult
  cases r' with
  | ok a => exact ⟨rfl, hafter⟩
  | error e => exact handled e hafter

/-- Doing alike things for each member of a list. -/
theorem alike_forIn {γ : Type} (xs : List γ) {f g : γ → Action Unit}
    (h : ∀ c, Alike R (f c) (g c)) :
    Alike R (forIn xs PUnit.unit fun c _ => do f c; pure (.yield PUnit.unit))
      (forIn xs PUnit.unit fun c _ => do g c; pure (.yield PUnit.unit)) := by
  induction xs with
  | nil => exact alike_pure _
  | cons c xs ih =>
    have first : Alike R (do f c; pure (ForInStep.yield PUnit.unit))
        (do g c; pure (.yield PUnit.unit)) := alike_bind (h c) fun _ => alike_pure _
    rw [List.forIn_cons, List.forIn_cons]
    refine alike_bind first fun step => ?_
    cases step with
    | done b => exact alike_pure b
    | yield b => exact ih

end Action

open Pinhole.Action

/-! ## Paired toolkits -/

/-- Two toolkits that know the same and do alike what all else is made of. -/
structure Paired (R : Session → Session → Prop) (k k' : Toolkit) : Prop where
  paths : k'.paths = k.paths
  mark : k'.mark = k.mark
  table : k'.table = k.table
  say : ∀ kind text, Alike R (k.say kind text) (k'.say kind text)
  apply : ∀ c, Alike R (k.apply c) (k'.apply c)
  same : ∀ {s s'}, R s s' → SameHoles s s'
  /-- What is known of the secondary filter may be learned in both sessions. -/
  learn : ∀ {s s'}, R s s' → R { s with ipv6 := true } { s' with ipv6 := true }
  /-- What is tracked may be changed in both sessions. -/
  track : ∀ {s s'}, R s s' → ∀ g, R { s with registry := g } { s' with registry := g }

namespace Paired

variable {R : Session → Session → Prop} {k k' : Toolkit} (p : Paired R k k')

include p

theorem applyTo (f : Filter) (verb : Verb) (rule : Rule) :
    Alike R (k.applyTo f verb rule) (k'.applyTo f verb rule) := p.apply _

theorem acceptSecondary (rule : Rule) :
    Alike R (k.acceptSecondary rule) (k'.acceptSecondary rule) := by
  unfold Toolkit.acceptSecondary
  rw [p.paths]
  refine alike_bind (p.applyTo _ _ _) fun taken => alike_ite ?_ (alike_get fun s s' related => ?_)
  · exact alike_bind (alike_modify fun s s' => p.learn) fun _ => alike_pure _
  · rw [(p.same related).ipv6]
    refine alike_ite (alike_bind (p.say _ _) fun _ => ?_) ?_
    · refine alike_bind (p.applyTo _ _ _) fun undone => alike_ite ?_ (alike_pure _)
      exact alike_bind (p.say _ _) fun _ => alike_pure _
    · exact alike_bind (p.say _ _) fun _ => alike_pure _

theorem accept (rule : Rule) : Alike R (k.accept rule) (k'.accept rule) := by
  unfold Toolkit.accept
  rw [p.paths]
  refine alike_bind (p.applyTo _ _ _) fun taken => alike_ite (p.acceptSecondary rule) ?_
  exact alike_bind (p.say _ _) fun _ => alike_pure _

theorem unaccept (rule : Rule) : Alike R (k.unaccept rule) (k'.unaccept rule) := by
  unfold Toolkit.unaccept
  refine alike_bind (p.applyTo _ _ _) fun primary => alike_get fun s s' related => ?_
  rw [(p.same related).ipv6]
  refine alike_ite ?_ (alike_pure _)
  exact alike_bind (p.applyTo _ _ _) fun secondary => alike_pure _

theorem filterPath (f : Filter) : k'.filterPath f = k.filterPath f := by
  cases f <;> simp only [Toolkit.filterPath, p.paths]

theorem applyReported (f : Filter) (verb : Verb) (rule : Rule) (what : String) :
    Alike R (k.applyReported f verb rule what) (k'.applyReported f verb rule what) := by
  unfold Toolkit.applyReported
  rw [p.filterPath]
  refine alike_bind (p.applyTo _ _ _) fun done => alike_ite ?_ (alike_pure _)
  exact alike_bind (p.say _ _) fun _ => alike_pure _

theorem applyBoth (verb : Verb) (rule : Rule) (what : String) :
    Alike R (k.applyBoth verb rule what) (k'.applyBoth verb rule what) := by
  unfold Toolkit.applyBoth
  refine alike_bind (p.applyReported _ _ _ _) fun primary => alike_ite (alike_pure _) ?_
  exact alike_bind (p.applyReported _ _ _ _) fun secondary => alike_pure _

/-! ### Holes -/

theorem refuse (f : Failure) : Alike R (k.refuse f) (k'.refuse f) :=
  alike_bind (p.say _ _) fun _ => alike_pure _

theorem openUp (h : Hole) : Alike R (k.openUp h) (k'.openUp h) := by
  unfold Toolkit.openUp
  refine alike_bind (p.say _ _) fun _ => alike_bind (p.accept h.rule) fun added => alike_ite ?_ ?_
  · refine alike_bind (alike_modify fun s s' related => ?_) fun _ => alike_pure _
    rw [(p.same related).registry]
    exact p.track related _
  · exact alike_bind (p.say _ _) fun _ => alike_pure _

theorem closeDown (h : Hole) : Alike R (k.closeDown h) (k'.closeDown h) := by
  unfold Toolkit.closeDown
  refine alike_bind (p.say _ _) fun _ => alike_bind (p.unaccept h.rule) fun gone => alike_ite ?_ ?_
  · refine alike_bind (alike_modify fun s s' related => ?_) fun _ => alike_pure _
    rw [(p.same related).registry]
    exact p.track related _
  · exact alike_bind (p.say _ _) fun _ => alike_pure _

theorem punch (protocol : Protocol) (port : Value) (interface : String) :
    Alike R (k.punch protocol port interface) (k'.punch protocol port interface) := by
  unfold Toolkit.punch
  split
  · exact p.refuse _
  split
  · exact p.refuse _
  refine alike_get fun s s' related => ?_
  rw [(p.same related).registry]
  refine alike_ite ?_ (p.openUp _)
  exact alike_bind (p.say _ _) fun _ => alike_pure _

theorem plug (protocol : Protocol) (port : Value) (interface : String) :
    Alike R (k.plug protocol port interface) (k'.plug protocol port interface) := by
  unfold Toolkit.plug
  split
  · exact p.refuse _
  refine alike_get fun s s' related => ?_
  rw [(p.same related).registry]
  refine alike_ite (p.closeDown _) ?_
  exact alike_bind (p.say _ _) fun _ => alike_pure _

theorem plugEach (hs : List Hole) : Alike R (k.plugEach hs) (k'.plugEach hs) := by
  induction hs with
  | nil => exact alike_pure _
  | cons h hs ih => exact alike_bind (p.plug _ _ _) fun _ => ih

theorem plugAll : Alike R k.plugAll k'.plugAll := by
  unfold Toolkit.plugAll
  refine alike_get fun s s' related => ?_
  rw [(p.same related).registry]
  refine alike_bind (p.plugEach _) fun _ => alike_get fun t t' related' => ?_
  rw [(p.same related').registry]
  exact alike_ite (alike_fail _) (alike_pure _)

/-! ### Steering -/

theorem applyStep (verb : Verb) (step : SteeringStep) :
    Alike R (k.applyStep verb step) (k'.applyStep verb step) := by
  cases step with
  | policy version =>
    simp only [Toolkit.applyStep, Toolkit.applyPolicy, p.mark, p.table]
    exact p.apply _
  | masquerade interface => exact p.applyBoth _ _ _
  | mark user =>
    simp only [Toolkit.applyStep, Toolkit.markUser, p.mark]
    exact p.applyBoth _ _ _

theorem removeEach (label : String) (steps : List SteeringStep) :
    Alike R (k.removeEach label steps) (k'.removeEach label steps) := by
  induction steps with
  | nil => exact alike_pure _
  | cons step steps ih =>
    unfold Toolkit.removeEach
    have rest : ∀ done, Alike R (do let rest ← k.removeEach label steps; pure (done && rest))
        (do let rest ← k'.removeEach label steps; pure (done && rest)) :=
      fun done => alike_bind ih fun _ => alike_pure _
    refine alike_bind (p.say _ _) fun _ => alike_bind (p.applyStep _ _) fun done => ?_
    exact alike_ite (alike_bind (p.say _ _) fun _ => rest done) (rest done)

theorem undo (installed : List SteeringStep) : Alike R (k.undo installed) (k'.undo installed) :=
  alike_bind (p.say _ _) fun _ => p.removeEach _ _

theorem abort (installed : List SteeringStep) (step : SteeringStep) :
    Alike R (k.abort installed step) (k'.abort installed step) := by
  unfold Toolkit.abort
  refine alike_bind (p.say _ _) fun _ => alike_ite ?_ (alike_pure _)
  refine alike_bind (p.undo _) fun undone => alike_ite ?_ (alike_pure _)
  exact alike_bind (p.say _ _) fun _ => alike_pure _

theorem install (installed steps : List SteeringStep) :
    Alike R (k.install installed steps) (k'.install installed steps) := by
  induction steps generalizing installed with
  | nil => exact alike_pure _
  | cons step steps ih =>
    unfold Toolkit.install
    exact alike_bind (p.applyStep _ _) fun taken => alike_ite (ih _) (p.abort _ _)

theorem skipEach (users : List String) : Alike R (k.skipEach users) (k'.skipEach users) := by
  induction users with
  | nil => exact alike_pure _
  | cons user users ih => exact alike_bind (p.say _ _) fun _ => ih

theorem tearDown (users : List String) (interface : String) :
    Alike R (k.tearDown users interface) (k'.tearDown users interface) := by
  unfold Toolkit.tearDown
  refine alike_bind (p.say _ _) fun _ => alike_bind (p.skipEach _) fun _ => ?_
  refine alike_bind (p.removeEach _ _) fun removed => alike_ite (alike_pure _) ?_
  exact alike_ite (alike_pure _) (alike_pure _)

theorem steer (users : List String) (interface : String) (verb : Verb) :
    Alike R (k.steer users interface verb) (k'.steer users interface verb) := by
  unfold Toolkit.steer
  split
  · exact alike_bind (p.say _ _) fun _ => alike_pure _
  split
  · exact alike_bind (p.say _ _) fun _ => alike_pure _
  · exact alike_bind (p.say _ _) fun _ => p.install _ _
  · exact p.tearDown _ _

/-! ### Calls -/

/-- Paired toolkits lead from related sessions to related sessions. -/
theorem perform (c : Call) {s s' : Session} (related : R s s') :
    R (k.perform s c) (k'.perform s' c) := by
  cases c with
  | punch protocol port interface => exact (p.punch protocol port interface related).2
  | plug protocol port interface => exact (p.plug protocol port interface related).2
  | plugAll => exact (p.plugAll related).2
  | steer verb users interface => exact (p.steer users interface verb related).2

theorem serve (calls : List Call) {s s' : Session} (related : R s s') :
    R (k.serve calls s) (k'.serve calls s') := by
  induction calls generalizing s s' with
  | nil => exact related
  | cons c calls ih => exact ih (p.perform c related)

end Paired

/-! ## Dry runs -/

/-- Runs commands really that would only be shown, on a system on which every command works. Nothing
changes where commands are really run. -/
def Executor.enacted (x : Executor) : Executor :=
  if x.dryRun then { x with dryRun := false, respond := .silent } else x

namespace Toolkit

/-- Carries out what a dry run would only show, on a system on which every command works. -/
def enacted (k : Toolkit) : Toolkit := { k with executor := k.executor.enacted }

/-- What a toolkit asked for while it served some calls. On a dry run this is what it would have
asked for if every command had worked, as it is told on a dry run. -/
def asked (k : Toolkit) (calls : List Call) (s : Session) : List Exchange :=
  (k.enacted.serve calls s).exchanges

variable {k : Toolkit}

theorem enacted_eq_self (live : k.executor.dryRun = false) : k.enacted = k := by
  simp [enacted, Executor.enacted, live]

theorem enacted_live (k : Toolkit) : k.enacted.executor.dryRun = false := by
  simp only [enacted, Executor.enacted]
  split
  · rfl
  · rename_i hdry
    exact Bool.eq_false_iff.2 hdry

/-- A change succeeds if the system answers every command by saying that it worked. -/
theorem on_apply_of_silent (silent : ∀ ps c, k.answer ps c = .silent) (c : Change) (s : Session) :
    ∃ t, (k.apply c).on s = (.ok true, t) ∧ SameHoles s t := by
  obtain ⟨a, t, ht, asks, same⟩ := k.on_apply c s
  have ha : a = .silent := asks.answers.1.trans (silent _ _)
  rw [ha] at ht
  exact ⟨t, ht, same⟩

/-- A toolkit does everything as it does it. -/
theorem paired_self (k : Toolkit) : Paired Eq k k where
  paths := rfl
  mark := rfl
  table := rfl
  say _ _ := fun _ _ h => h ▸ ⟨rfl, rfl⟩
  apply _ := fun _ _ h => h ▸ ⟨rfl, rfl⟩
  same h := h ▸ ⟨rfl, rfl⟩
  learn h := h ▸ rfl
  track h _ := h ▸ rfl

/-- On a dry run as much is known and tracked as if it had been carried out. -/
theorem paired_enacted (dry : k.executor.dryRun = true) : Paired SameHoles k k.enacted where
  paths := rfl
  mark := rfl
  table := rfl
  say kind text := by
    intro s s' same
    obtain ⟨t, ht, -, hst⟩ := k.on_say kind text s
    obtain ⟨t', ht', -, hst'⟩ := k.enacted.on_say kind text s'
    rw [ht, ht']
    exact ⟨rfl, hst.symm.trans (same.trans hst')⟩
  apply c := by
    intro s s' same
    have silent : ∀ ps c, k.answer ps c = .silent := fun ps c => by
      simp [answer, Executor.answer, dry]
    have silent' : ∀ ps c, k.enacted.answer ps c = .silent := fun ps c => by
      simp [answer, Executor.answer, enacted, Executor.enacted, dry, Responder.silent]
    obtain ⟨t, ht, hst⟩ := on_apply_of_silent silent c s
    obtain ⟨t', ht', hst'⟩ := on_apply_of_silent silent' c s'
    rw [ht, ht']
    exact ⟨rfl, hst.symm.trans (same.trans hst')⟩
  same h := h
  learn h := ⟨h.registry, rfl⟩
  track h _ := ⟨rfl, h.ipv6⟩

/-- A toolkit and what it would be if it were not on a dry run are paired, in one way or the
other. -/
theorem exists_paired_enacted (k : Toolkit) :
    ∃ R : Session → Session → Prop, Paired R k k.enacted ∧ ∀ s, R s s := by
  cases hdry : k.executor.dryRun with
  | false => exact ⟨Eq, by rw [enacted_eq_self hdry]; exact k.paired_self, fun _ => rfl⟩
  | true => exact ⟨SameHoles, paired_enacted hdry, fun _ => ⟨rfl, rfl⟩⟩

end Toolkit

end Pinhole
