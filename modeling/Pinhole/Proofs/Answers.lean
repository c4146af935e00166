import Pinhole.Proofs.Preview
import Pinhole.Proofs.Rollback

/-!
# The answers decide

What a call asks for, what it gives back and what it makes of the tracked holes is decided by what
is tracked before, by what is known of the secondary filter, and by the answers of the system. Two
courses of one call that begin alike and whose answers agree, as far as both of them go, are the same
course; where the answers differ for the first time, both have asked for the same change.

There is one lemma for each kind of course, by cases on both. `Toolkit.unique_of_holes` and
`Toolkit.unique_of_steering` put them together for the calls about holes and for the calls that
steer: the latter do not depend on anything in the session.
-/

namespace Pinhole

/-! ## Agreement -/

/-- Two lists agree as far as both of them go. -/
def Agree {α : Type} : List α → List α → Prop
  | a :: as, b :: bs => a = b ∧ Agree as bs
  | _, _ => True

namespace Agree

variable {α : Type} {as bs cs ds : List α}

/-- Where both lists have a member at a place, it is the same. -/
theorem iff_getElem? : Agree as bs ↔ ∀ (i : Nat) (a b : α), as[i]? = some a → bs[i]? = some b → a = b := by
  induction as generalizing bs with
  | nil => simp [Agree]
  | cons x as ih =>
    cases bs with
    | nil => simp [Agree]
    | cons y bs =>
      rw [Agree, ih]
      constructor
      · rintro ⟨rfl, h⟩ i a b ha hb
        cases i with
        | zero => exact Option.some.inj (ha.symm.trans hb)
        | succ i => exact h i a b ha hb
      · exact fun h => ⟨h 0 x y rfl rfl, fun i a b ha hb => h (i + 1) a b ha hb⟩

theorem symm (h : Agree as bs) : Agree bs as := by
  induction as generalizing bs with
  | nil => cases bs <;> trivial
  | cons a as ih =>
    cases bs with
    | nil => trivial
    | cons b bs => exact ⟨h.1.symm, ih h.2⟩

/-- The beginnings of lists that agree do so. -/
theorem of_append (h : Agree (as ++ bs) (cs ++ ds)) : Agree as cs := by
  induction as generalizing cs with
  | nil => cases cs <;> trivial
  | cons a as ih =>
    cases cs with
    | nil => trivial
    | cons c cs => exact ⟨h.1, ih h.2⟩

/-- After a common beginning the rests of lists that agree do so. -/
theorem of_append_self (h : Agree (as ++ bs) (as ++ cs)) : Agree bs cs := by
  induction as with
  | nil => exact h
  | cons a as ih => exact ih h.2

/-- Lists agree that have only one member over and over. -/
theorem of_constant {a : α} (has : ∀ x ∈ as, x = a) (hbs : ∀ x ∈ bs, x = a) : Agree as bs := by
  refine iff_getElem?.2 fun i x y hx hy => ?_
  rw [has x (List.mem_of_getElem? hx), hbs y (List.mem_of_getElem? hy)]

end Agree

/-- The answers to some exchanges. -/
def answers (es : List Exchange) : List Answer := es.map (·.answer)

theorem answers_append (es fs : List Exchange) : answers (es ++ fs) = answers es ++ answers fs :=
  List.map_append

/-! ## One course -/

section Courses

variable {es fs : List Exchange}

/-- The adding of an accept rule is decided by the answers. -/
theorem Accepting.unique {rule : Rule} {w w₁ w₂ : Bool} {r q : Except Stop Bool}
    (h : Accepting rule w es w₁ r) (h' : Accepting rule w fs w₂ q)
    (agree : Agree (answers es) (answers fs)) : es = fs ∧ r = q ∧ w₁ = w₂ := by
  cases h <;> cases h' <;> simp_all [Agree, answers]

/-- The deleting of an accept rule is decided by the answers. -/
theorem Unaccepting.unique {rule : Rule} {w : Bool} {r q : Except Stop Bool}
    (h : Unaccepting rule w es r) (h' : Unaccepting rule w fs q)
    (agree : Agree (answers es) (answers fs)) : es = fs ∧ r = q := by
  cases h <;> cases h' <;> simp_all [Agree, answers]

/-- Going through additions is decided by the answers. -/
theorem Adding.unique {cs : List Change} {r q : Except Stop Bool} (h : Adding cs es r)
    (h' : Adding cs fs q) (agree : Agree (answers es) (answers fs)) : es = fs ∧ r = q := by
  induction h generalizing fs with
  | nil =>
    cases h'
    exact ⟨rfl, rfl⟩
  | cons ha rest ih =>
    cases h' with
    | cons hb rest' =>
      obtain ⟨rfl, agree⟩ := agree
      obtain ⟨rfl, rfl⟩ := ih rest' agree
      exact ⟨rfl, rfl⟩
    | refused hb | cut hb => simp_all [Agree, answers]
  | refused ha | cut ha => cases h' <;> simp_all [Agree, answers]

/-- Going through deletions is decided by the answers. -/
theorem Deleting.unique {cs : List Change} {r q : Except Stop Bool} (h : Deleting cs es r)
    (h' : Deleting cs fs q) (agree : Agree (answers es) (answers fs)) : es = fs ∧ r = q := by
  induction h generalizing fs q with
  | nil =>
    cases h'
    exact ⟨rfl, rfl⟩
  | cons ha rest ih =>
    cases h' with
    | cons hb rest' =>
      obtain ⟨rfl, agree⟩ := agree
      obtain ⟨rfl, rfl⟩ := ih rest' agree
      exact ⟨rfl, rfl⟩
    | cut hb => simp_all [Agree, answers]
  | cut ha => cases h' <;> simp_all [Agree, answers]

/-- Adding that was done asked for every change. -/
theorem Adding.length_eq {cs : List Change} (h : Adding cs es (.ok true)) :
    es.length = cs.length := by
  generalize hr : (Except.ok true : Except Stop Bool) = r at h
  induction h with
  | nil => rfl
  | cons ha rest ih => rw [List.length_cons, List.length_cons, ih hr]
  | refused ha | cut ha => cases hr

/-- Adding that was refused asked for one change at least, and for no more than there are. -/
theorem Adding.length_of_refused {cs : List Change} (h : Adding cs es (.ok false)) :
    0 < es.length ∧ es.length ≤ cs.length := by
  obtain ⟨made, c, left, ups, a, rfl, rfl, rfl, -, -⟩ := h.up_to_refusal
  simp

end Courses

/-! ## Setting up -/

/-- The same toolkit on another system. -/
def Toolkit.facing (k : Toolkit) (respond : Responder) : Toolkit :=
  { k with executor := { k.executor with respond } }

section Setup

variable {k : Toolkit} {respond : Responder} {es fs : List Exchange} {installed : List SteeringStep}

/-- Taking the steps before one that fails, and that one in part, asks for more than taking fewer
steps would. -/
theorem length_before_le {before after before' after' : List SteeringStep}
    {step step' : SteeringStep} {es' fs' : List Exchange}
    (hsteps : before ++ step :: after = before' ++ step' :: after')
    (up : Adding (k.changes .add before) es (.ok true))
    (failed : Adding (k.stepChanges .add step) fs (.ok false))
    (up' : Adding (k.changes .add before') es' (.ok true))
    (failed' : Adding (k.stepChanges .add step') fs' (.ok false))
    (hlength : (es ++ fs).length = (es' ++ fs').length) : before'.length ≤ before.length := by
  by_contra hlt
  obtain ⟨mid, rfl⟩ : ∃ mid, before' = before ++ step :: mid := by
    rcases List.append_eq_append_iff.1 hsteps with ⟨mid, hbefore, hrest⟩ | ⟨mid, hbefore, -⟩
    · cases mid with
      | nil => simp [hbefore] at hlt
      | cons x mid =>
        obtain ⟨rfl, -⟩ := List.cons.inj hrest
        exact ⟨mid, hbefore⟩
    · simp [hbefore] at hlt
  have hchanges : k.changes .add (before ++ step :: mid) =
      k.changes .add before ++ (k.stepChanges .add step ++ k.changes .add mid) := by
    simp [Toolkit.changes]
  have hdone := up.length_eq
  have hdone' := up'.length_eq
  have hfailed := failed.length_of_refused
  have hfailed' := failed'.length_of_refused
  rw [hchanges] at hdone'
  simp only [List.length_append] at hlength hdone'
  omega

/-- The step at which taking steps fails is decided by how much was asked for. -/
theorem failed_step_unique {before after before' after' : List SteeringStep}
    {step step' : SteeringStep} {es' fs' : List Exchange}
    (hsteps : before ++ step :: after = before' ++ step' :: after')
    (up : Adding (k.changes .add before) es (.ok true))
    (failed : Adding (k.stepChanges .add step) fs (.ok false))
    (up' : Adding (k.changes .add before') es' (.ok true))
    (failed' : Adding (k.stepChanges .add step') fs' (.ok false))
    (hlength : (es ++ fs).length = (es' ++ fs').length) : before = before' ∧ step = step' := by
  have hle := length_before_le hsteps up failed up' failed' hlength
  have hge := length_before_le hsteps.symm up' failed' up failed hlength.symm
  obtain ⟨hbefore, hrest⟩ := List.append_inj hsteps (Nat.le_antisymm hge hle)
  exact ⟨hbefore, (List.cons.inj hrest).1⟩

/-- Adding that was refused at a step was refused on the way through all steps. -/
theorem adding_of_failed {steps before after : List SteeringStep} {step : SteeringStep}
    (hsteps : steps = before ++ step :: after)
    (up : Adding (k.changes .add before) es (.ok true))
    (failed : Adding (k.stepChanges .add step) fs (.ok false)) :
    Adding (k.changes .add steps) (es ++ fs) (.ok false) := by
  have hchanges : k.changes .add steps =
      k.changes .add before ++ k.stepChanges .add step ++ k.changes .add after := by
    simp [hsteps, Toolkit.changes]
  rw [hchanges]
  exact (up.append failed).stopped (by simp) _

/-- Additions that were not refused, and additions that were and after which more was asked for, do
not agree. -/
theorem Adding.not_agree {cs : List Change} {gs : List Exchange} {r : Except Stop Bool}
    (h : Adding cs es r) (hr : r ≠ .ok false) (h' : Adding cs fs (.ok false)) :
    ¬ Agree (answers es) (answers (fs ++ gs)) := by
  intro agree
  have begun : Agree (answers es ++ []) (answers fs ++ answers gs) := by
    rwa [List.append_nil, ← answers_append]
  exact hr (h.unique h' begun.of_append).2

/-- Taking steps is decided by the answers. -/
theorem Installing.unique {steps : List SteeringStep} {r q : Except Stop Outcome}
    (h : Installing k installed steps es r)
    (h' : Installing (k.facing respond) installed steps fs q)
    (agree : Agree (answers es) (answers fs)) : es = fs ∧ r = q := by
  cases h with
  | finished up =>
    cases h' with
    | finished up' => exact ⟨(up.unique up' agree).1, rfl⟩
    | cut up' => cases (up.unique up' agree).2
    | aborted hsteps up' failed' down' =>
      rw [← List.append_assoc] at agree
      exact absurd agree (up.not_agree (by simp) (adding_of_failed hsteps up' failed'))
  | cut up =>
    cases h' with
    | finished up' => cases (up.unique up' agree).2
    | cut up' =>
      obtain ⟨rfl, hr⟩ := up.unique up' agree
      exact ⟨rfl, by rw [Except.error.inj hr]⟩
    | aborted hsteps up' failed' down' =>
      rw [← List.append_assoc] at agree
      exact absurd agree (up.not_agree (by simp) (adding_of_failed hsteps up' failed'))
  | @aborted before after step es fs gs r hsteps up failed down =>
    rw [← List.append_assoc] at agree ⊢
    have first := adding_of_failed hsteps up failed
    cases h' with
    | finished up' => exact absurd agree.symm (up'.not_agree (by simp) first)
    | cut up' => exact absurd agree.symm (up'.not_agree (by simp) first)
    | @aborted before' after' step' es' fs' gs' q hsteps' up' failed' down' =>
      rw [← List.append_assoc] at agree ⊢
      have first' := adding_of_failed hsteps' up' failed'
      rw [answers_append (es ++ fs), answers_append (es' ++ fs')] at agree
      have hups := (first.unique first' agree.of_append).1
      obtain ⟨rfl, rfl⟩ := failed_step_unique (hsteps.symm.trans hsteps') up failed up' failed'
        (congrArg List.length hups)
      rw [hups] at agree ⊢
      obtain ⟨rfl, rfl⟩ := down.unique down' agree.of_append_self
      exact ⟨rfl, rfl⟩

end Setup

/-! ## Whole calls -/

/-- Two calls come to the same if the answers agree: each has been through some exchanges, and if
the answers to these agree, the exchanges are the same, both calls end in the same way, and they lead
to sessions that are related again. -/
def Settled {α : Type} (k k' : Toolkit) (Same : Session → Session → Prop) (s s' : Session)
    (x y : Except Stop α × Session) : Prop :=
  ∃ es fs, k.Asks s es x.2 ∧ k'.Asks s' fs y.2 ∧
    (Agree (answers es) (answers fs) → es = fs ∧ x.1 = y.1 ∧ Same x.2 y.2)

namespace Settled

variable {α β : Type} {k k' : Toolkit} {Same : Session → Session → Prop} {s s' t t' : Session}

/-- What ends in one way on both sides without asking for anything. -/
theorem idle {r : Except Stop α} (asks : k.Asks s [] t) (asks' : k'.Asks s' [] t')
    (same : Same t t') : Settled k k' Same s s' (r, t) (r, t') :=
  ⟨[], [], asks, asks', fun _ => ⟨rfl, rfl, same⟩⟩

/-- What goes on after a first part is decided if both parts are. Each side asks for something in
the second part in any case, also where the sides have gone different ways. -/
theorem bind {x y : Action α} {f g : α → Action β} (first : Settled k k' Same s s' (x.on s) (y.on s'))
    (asked : ∀ a t, ∃ es, k.Asks t es ((f a).on t).2)
    (asked' : ∀ a t, ∃ es, k'.Asks t es ((g a).on t).2)
    (rest : ∀ a t t', Same t t' → Settled k k' Same t t' ((f a).on t) ((g a).on t')) :
    Settled k k' Same s s' ((x >>= f).on s) ((y >>= g).on s') := by
  obtain ⟨es, fs, asks, asks', course⟩ := first
  rcases hx : x.on s with ⟨r, t⟩
  rcases hy : y.on s' with ⟨q, t'⟩
  rw [hx, hy] at course
  rw [hx] at asks
  rw [hy] at asks'
  by_cases together : r = q ∧ Same t t'
  · obtain ⟨rfl, same⟩ := together
    rw [Action.on_bind, Action.on_bind, hx, hy]
    cases r with
    | error e => exact ⟨es, fs, asks, asks', fun agree => ⟨(course agree).1, rfl, same⟩⟩
    | ok a =>
      obtain ⟨es₂, fs₂, asks₂, asks₂', course₂⟩ := rest a t t' same
      refine ⟨es ++ es₂, fs ++ fs₂, asks.trans asks₂, asks'.trans asks₂', fun agree => ?_⟩
      rw [answers_append, answers_append] at agree
      obtain ⟨rfl, -⟩ := course agree.of_append
      obtain ⟨rfl, ended⟩ := course₂ agree.of_append_self
      exact ⟨rfl, ended⟩
  · obtain ⟨es₂, asks₂⟩ : ∃ es₂, k.Asks t es₂ ((x >>= f).on s).2 := by
      rw [Action.on_bind, hx]
      cases r with
      | error e => exact ⟨[], .refl k t⟩
      | ok a => exact asked a t
    obtain ⟨fs₂, asks₂'⟩ : ∃ fs₂, k'.Asks t' fs₂ ((y >>= g).on s').2 := by
      rw [Action.on_bind, hy]
      cases q with
      | error e => exact ⟨[], .refl k' t'⟩
      | ok a => exact asked' a t'
    refine ⟨es ++ es₂, fs ++ fs₂, asks.trans asks₂, asks'.trans asks₂', fun agree => ?_⟩
    rw [answers_append, answers_append] at agree
    exact absurd (course agree.of_append).2 together

end Settled

namespace Toolkit

variable (k : Toolkit) (respond : Responder) {s s' : Session}

/-- Saying something before a result is no exchange. -/
theorem settled_say {Same : Session → Session → Prop} {α : Type} (kind : MessageKind)
    (text : String) (a : α)
    (same : ∀ {t t'}, SameHoles s t → SameHoles s' t' → Same t t') :
    Settled k (k.facing respond) Same s s' ((do k.say kind text; return a : Action α).on s)
      ((do (k.facing respond).say kind text; return a : Action α).on s') := by
  obtain ⟨t, ht, asks, st⟩ := k.on_say kind text s
  obtain ⟨t', ht', asks', st'⟩ := (k.facing respond).on_say kind text s'
  rw [Action.on_bind, Action.on_bind, ht, ht']
  exact .idle asks asks' (same st st')

/-- Opening a hole is decided by the answers. -/
theorem settled_openUp (h : Hole) (same : SameHoles s s') :
    Settled k (k.facing respond) SameHoles s s' ((k.openUp h).on s)
      (((k.facing respond).openUp h).on s') := by
  obtain ⟨es, r, t, ht, course, asks, tracked⟩ := k.on_openUp h s
  obtain ⟨fs, q, t', ht', course', asks', tracked'⟩ := (k.facing respond).on_openUp h s'
  refine ⟨es, fs, ht ▸ asks, ht' ▸ asks', fun agree => ?_⟩
  rw [same.ipv6] at course'
  obtain ⟨hes, rfl, flag⟩ := course.unique course' agree
  rw [ht, ht']
  exact ⟨hes, rfl, ⟨by rw [tracked', tracked, same.registry], flag.symm⟩⟩

/-- Closing a hole is decided by the answers. -/
theorem settled_closeDown (h : Hole) (same : SameHoles s s') :
    Settled k (k.facing respond) SameHoles s s' ((k.closeDown h).on s)
      (((k.facing respond).closeDown h).on s') := by
  obtain ⟨es, r, t, ht, course, asks, flag, tracked⟩ := k.on_closeDown h s
  obtain ⟨fs, q, t', ht', course', asks', flag', tracked'⟩ := (k.facing respond).on_closeDown h s'
  refine ⟨es, fs, ht ▸ asks, ht' ▸ asks', fun agree => ?_⟩
  rw [same.ipv6] at course'
  obtain ⟨hes, rfl⟩ := course.unique course' agree
  rw [ht, ht']
  exact ⟨hes, rfl, ⟨by rw [tracked', tracked, same.registry], by rw [flag', flag, same.ipv6]⟩⟩

/-- Punching a hole is decided by the answers. -/
theorem settled_punch (protocol : Protocol) (port : Value) (interface : String)
    (same : SameHoles s s') :
    Settled k (k.facing respond) SameHoles s s' ((k.punch protocol port interface).on s)
      (((k.facing respond).punch protocol port interface).on s') := by
  have after : ∀ {t t'}, SameHoles s t → SameHoles s' t' → SameHoles t t' :=
    fun st st' => st.symm.trans (same.trans st')
  unfold punch
  split
  · exact k.settled_say respond _ _ _ after
  split
  · exact k.settled_say respond _ _ _ after
  simp only [Action.on_bind, Action.on_get, same.registry]
  split
  · exact k.settled_say respond _ _ _ after
  · exact k.settled_openUp respond _ same

/-- Plugging a hole is decided by the answers. -/
theorem settled_plug (protocol : Protocol) (port : Value) (interface : String)
    (same : SameHoles s s') :
    Settled k (k.facing respond) SameHoles s s' ((k.plug protocol port interface).on s)
      (((k.facing respond).plug protocol port interface).on s') := by
  have after : ∀ {t t'}, SameHoles s t → SameHoles s' t' → SameHoles t t' :=
    fun st st' => st.symm.trans (same.trans st')
  unfold plug
  split
  · exact k.settled_say respond _ _ _ after
  simp only [Action.on_bind, Action.on_get, same.registry]
  split
  · exact k.settled_closeDown respond _ same
  · exact k.settled_say respond _ _ _ after

/-- Plugging some holes in turn asks for something. -/
theorem asks_plugEach (hs : List Hole) (s : Session) :
    ∃ es, k.Asks s es ((k.plugEach hs).on s).2 := by
  obtain ⟨r, t, ht, course⟩ := k.on_plugEach hs s
  rw [ht]
  exact course.moves.asks

/-- Plugging some holes in turn is decided by the answers. -/
theorem settled_plugEach (hs : List Hole) (same : SameHoles s s') :
    Settled k (k.facing respond) SameHoles s s' ((k.plugEach hs).on s)
      (((k.facing respond).plugEach hs).on s') := by
  induction hs generalizing s s' with
  | nil => exact .idle (.refl k s) (.refl _ s') same
  | cons h hs ih =>
    exact .bind (k.settled_plug respond h.protocol (.int h.port) h.interface same)
      (fun _ => k.asks_plugEach hs) (fun _ => (k.facing respond).asks_plugEach hs)
      fun _ _ _ => ih

/-- Plugging all holes is decided by the answers. -/
theorem settled_plugAll (same : SameHoles s s') :
    Settled k (k.facing respond) SameHoles s s' (k.plugAll.on s)
      ((k.facing respond).plugAll.on s') := by
  -- In the end only the session is looked at.
  have judged : ∀ t : Session, (do
      let left := (← get).registry.holes
      if !left.isEmpty then .fail (stillOpen left) : Action Unit).on t =
        (t.registry.pluggedAll (.ok ()), t) := by
    intro t
    simp only [Action.on_bind, Action.on_get, Registry.pluggedAll]
    cases t.registry.holes.isEmpty <;> rfl
  unfold plugAll
  rw [Action.on_bind get, Action.on_bind get, Action.on_get, Action.on_get]
  dsimp only
  rw [same.registry]
  refine .bind (k.settled_plugEach respond s.registry.holes same) (fun _ t => ?_) (fun _ t => ?_)
    fun _ t t' same => ?_
  · rw [judged]
    exact ⟨[], .refl k t⟩
  · rw [judged]
    exact ⟨[], .refl _ t⟩
  · rw [judged, judged, same.registry]
    exact .idle (.refl k t) (.refl _ t') same

/-- Setting up is decided by the answers alone. -/
theorem settled_setUp (users : List String) (interface : String) (s s' : Session) :
    Settled k (k.facing respond) (fun _ _ => True) s s' ((k.setUp users interface).on s)
      (((k.facing respond).setUp users interface).on s') := by
  obtain ⟨t, ht, asks, -⟩ := k.on_say .step ("Setting up " ++ steeringText users interface) s
  obtain ⟨t', ht', asks', -⟩ := (k.facing respond).on_say .step
    ("Setting up " ++ steeringText users interface) s'
  obtain ⟨es, r, u, hu, course, asks₂, -⟩ := k.on_install [] (SteeringStep.all users interface) t
  obtain ⟨fs, q, u', hu', course', asks₂', -⟩ :=
    (k.facing respond).on_install [] (SteeringStep.all users interface) t'
  simp only [setUp, Action.on_bind, ht, ht', hu, hu']
  refine ⟨es, fs, asks.trans asks₂, asks'.trans asks₂', fun agree => ?_⟩
  obtain ⟨hes, hr⟩ := course.unique course' agree
  exact ⟨hes, hr, trivial⟩

/-- Taking the steering back is decided by the answers alone. -/
theorem settled_tearDown (users : List String) (interface : String) (s s' : Session) :
    Settled k (k.facing respond) (fun _ _ => True) s s' ((k.tearDown users interface).on s)
      (((k.facing respond).tearDown users interface).on s') := by
  obtain ⟨es, r, t, ht, course, asks, -⟩ := k.on_tearDown users interface s
  obtain ⟨fs, q, t', ht', course', asks', -⟩ := (k.facing respond).on_tearDown users interface s'
  rw [ht, ht']
  refine ⟨es, fs, asks, asks', fun agree => ?_⟩
  obtain ⟨hes, hr⟩ := course.unique course' agree
  exact ⟨hes, by rw [hr], trivial⟩

/-- Steering is decided by the answers alone, whatever holes are tracked and whatever is known of the
secondary filter. -/
theorem settled_steer (users : List String) (interface : String) (verb : Verb) (s s' : Session) :
    Settled k (k.facing respond) (fun _ _ => True) s s' ((k.steer users interface verb).on s)
      (((k.facing respond).steer users interface verb).on s') := by
  unfold steer
  split
  · exact k.settled_say respond _ _ _ fun _ _ => trivial
  split
  · exact k.settled_say respond _ _ _ fun _ _ => trivial
  · exact k.settled_setUp respond _ _ s s'
  · exact k.settled_tearDown respond _ _ s s'

end Toolkit

end Pinhole
