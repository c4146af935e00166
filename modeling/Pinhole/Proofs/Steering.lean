import Pinhole.Firewall.Steering
import Pinhole.Proofs.Exchange

/-!
# What becomes of a setup

A step of steering is one change or two: the routing policy knows each version of the protocol by
itself, and the rules for packets are put into both filters. Adding goes through the changes of a
step and stops at the first that is refused (`Adding`); deleting goes through all of them
(`Deleting`). Only an interrupt stops both.

`on_install` says what a setup does with its steps: it goes through all of them, or through those
before the one that fails and back again.
-/

namespace Pinhole

/-! ## Going through changes -/

/-- The courses of adding: the changes, the exchanges about them, and the result. -/
inductive Adding : List Change → List Exchange → Except Stop Bool → Prop
  | nil : Adding [] [] (.ok true)
  | cons {c : Change} {cs : List Change} {a : Answer} {es : List Exchange} {r : Except Stop Bool}
    (ha : a.reply = .done) (rest : Adding cs es r) : Adding (c :: cs) (⟨c, a⟩ :: es) r
  | refused {c : Change} {cs : List Change} {a : Answer} (ha : a.reply = .refused) :
    Adding (c :: cs) [⟨c, a⟩] (.ok false)
  | cut {c : Change} {cs : List Change} {a : Answer} (ha : a.reply = .cut) :
    Adding (c :: cs) [⟨c, a⟩] (.error .interrupted)

/-- The courses of deleting. All of it worked when each change was made. -/
inductive Deleting : List Change → List Exchange → Except Stop Bool → Prop
  | nil : Deleting [] [] (.ok true)
  | cons {c : Change} {cs : List Change} {a : Answer} {es : List Exchange} {r : Except Stop Bool}
    (ha : a.reply ≠ .cut) (rest : Deleting cs es r) :
    Deleting (c :: cs) (⟨c, a⟩ :: es) (r.map (decide (a.reply = .done) && ·))
  | cut {c : Change} {cs : List Change} {a : Answer} (ha : a.reply = .cut) :
    Deleting (c :: cs) [⟨c, a⟩] (.error .interrupted)

section Courses

variable {cs ds : List Change} {es fs : List Exchange} {r : Except Stop Bool} {e : Exchange}

/-- Adding goes on where it was done so far. -/
theorem Adding.append (h : Adding cs es (.ok true)) (h' : Adding ds fs r) :
    Adding (cs ++ ds) (es ++ fs) r := by
  generalize hr : (Except.ok true : Except Stop Bool) = q at h
  induction h with
  | nil => exact h'
  | cons ha rest ih => exact .cons ha (ih hr)
  | refused ha => cases hr
  | cut ha => cases hr

/-- Adding that stopped stays where it is, whatever else was to be added. -/
theorem Adding.stopped (h : Adding cs es r) (hr : r ≠ .ok true) (ds : List Change) :
    Adding (cs ++ ds) es r := by
  induction h with
  | nil => exact absurd rfl hr
  | cons ha rest ih => exact .cons ha (ih hr)
  | refused ha => exact .refused ha
  | cut ha => exact .cut ha

/-- Only changes that were to be added are asked for. -/
theorem Adding.change_mem (h : Adding cs es r) (he : e ∈ es) : e.change ∈ cs := by
  induction h with
  | nil => cases he
  | cons ha rest ih =>
    rcases List.mem_cons.1 he with rfl | he
    · exact List.mem_cons_self
    · exact List.mem_cons_of_mem _ (ih he)
  | refused ha =>
    rw [List.mem_singleton.1 he]
    exact List.mem_cons_self
  | cut ha =>
    rw [List.mem_singleton.1 he]
    exact List.mem_cons_self

/-- Deleting one thing works when the change is made. -/
theorem Deleting.single {c : Change} {a : Answer} (ha : a.reply ≠ .cut) :
    Deleting [c] [⟨c, a⟩] (.ok (a.reply = .done)) := by
  have h : Deleting [c] [⟨c, a⟩] (.ok (decide (a.reply = .done) && true)) := .cons ha .nil
  rwa [Bool.and_true] at h

/-- Deleting goes on unless it was interrupted. -/
theorem Deleting.append {b : Bool} (h : Deleting cs es (.ok b)) (h' : Deleting ds fs r) :
    Deleting (cs ++ ds) (es ++ fs) (r.map (b && ·)) := by
  generalize hq : (Except.ok b : Except Stop Bool) = q at h
  induction h generalizing b with
  | nil =>
    cases hq
    have hid : r.map (true && ·) = r := by cases r <;> rfl
    rw [hid]
    exact h'
  | @cons c cs a es q ha rest ih =>
    cases q with
    | error e => cases hq
    | ok b' =>
      have hb : b = (decide (a.reply = .done) && b') := Except.ok.inj hq
      -- The result of each part goes through that of the whole, from the left or from the right.
      have hmap : (r.map (b' && ·)).map (decide (a.reply = .done) && ·) = r.map (b && ·) := by
        cases r with
        | error e => rfl
        | ok b'' => rw [hb]; simp [Except.map, Bool.and_assoc]
      exact hmap ▸ .cons ha (ih rfl)
  | cut ha => cases hq

/-- Deleting that was interrupted stays where it is. -/
theorem Deleting.stopped {x : Stop} (h : Deleting cs es (.error x)) (ds : List Change) :
    Deleting (cs ++ ds) es (.error x) := by
  generalize hq : (Except.error x : Except Stop Bool) = q at h
  induction h with
  | nil => cases hq
  | @cons c cs a es q ha rest ih =>
    cases q with
    | ok b => cases hq
    | error e =>
      cases hq
      exact Deleting.cons ha (ih rfl)
  | cut ha =>
    cases hq
    exact .cut ha

/-- Only changes that were to be deleted are asked for. -/
theorem Deleting.change_mem (h : Deleting cs es r) (he : e ∈ es) : e.change ∈ cs := by
  induction h with
  | nil => cases he
  | cons ha rest ih =>
    rcases List.mem_cons.1 he with rfl | he
    · exact List.mem_cons_self
    · exact List.mem_cons_of_mem _ (ih he)
  | cut ha =>
    rw [List.mem_singleton.1 he]
    exact List.mem_cons_self

end Courses

/-! ## Steps -/

/-- The tools that a step concerns. -/
def SteeringStep.tools : SteeringStep → List Tool
  | .policy _ => [.routing]
  | .masquerade _ | .mark _ => [.filter .primary, .filter .secondary]

namespace Toolkit

variable (k : Toolkit)

/-- The rule of a step. -/
def stepRule : SteeringStep → Rule
  | .policy version => .policy version k.mark k.table
  | .masquerade interface => .masquerade interface
  | .mark user => .mark user k.mark

/-- The changes that a step is, or that take it back. -/
def stepChanges (verb : Verb) (step : SteeringStep) : List Change :=
  step.tools.map fun tool => ⟨tool, verb, k.stepRule step⟩

/-- The changes that some steps are, or that take them back. -/
def changes (verb : Verb) (steps : List SteeringStep) : List Change :=
  steps.flatMap (k.stepChanges verb)

/-- Asking one filter for a change and reporting a refusal is one exchange. -/
theorem on_applyReported (f : Filter) (verb : Verb) (rule : Rule) (what : String) (s : Session) :
    ∃ a t, (k.applyReported f verb rule what).on s = (a.reply.result, t) ∧
      k.Asks s [⟨.inFilter f verb rule, a⟩] t ∧ SameHoles s t := by
  obtain ⟨a, t, ha, asks, same⟩ := k.on_applyTo f verb rule s
  refine ⟨a, ?_⟩
  simp only [applyReported, Action.on_bind, ha]
  cases a.reply with
  | done => exact ⟨t, rfl, asks, same⟩
  | cut => exact ⟨t, rfl, asks, same⟩
  | refused =>
    obtain ⟨u, hu, asks', same'⟩ := k.on_say .error
      (doing verb ++ " " ++ what ++ " failed using '" ++ k.filterPath f ++ "'") t
    refine ⟨u, ?_, asks.trans asks', same.trans same'⟩
    simp only [Reply.result, Bool.not_false, if_true, Action.on_bind, hu]
    rfl

/-- Adding a rule to both filters goes through two changes. -/
theorem on_applyBoth_add (rule : Rule) (what : String) (s : Session) :
    ∃ es r t, (k.applyBoth .add rule what).on s = (r, t) ∧
      Adding [.inFilter .primary .add rule, .inFilter .secondary .add rule] es r ∧
      k.Asks s es t ∧ SameHoles s t := by
  obtain ⟨a, t, ha, asks, same⟩ := k.on_applyReported .primary .add rule what s
  rw [applyBoth, Action.on_bind, ha]
  cases hreply : a.reply with
  | refused => exact ⟨_, _, t, rfl, .refused hreply, asks, same⟩
  | cut => exact ⟨_, _, t, rfl, .cut hreply, asks, same⟩
  | done =>
    obtain ⟨b, u, hb, asks', same'⟩ := k.on_applyReported .secondary .add rule what t
    simp only [Reply.result, Bool.not_true, Bool.false_and, Bool.false_eq_true, if_false,
      Action.on_bind, hb]
    cases hreply' : b.reply with
    | done => exact ⟨_, _, u, rfl, .cons hreply (.cons hreply' .nil), asks.trans asks',
        same.trans same'⟩
    | refused => exact ⟨_, _, u, rfl, .cons hreply (.refused hreply'), asks.trans asks',
        same.trans same'⟩
    | cut => exact ⟨_, _, u, rfl, .cons hreply (.cut hreply'), asks.trans asks', same.trans same'⟩

/-- Deleting a rule from both filters goes through two changes. -/
theorem on_applyBoth_delete (rule : Rule) (what : String) (s : Session) :
    ∃ es r t, (k.applyBoth .delete rule what).on s = (r, t) ∧
      Deleting [.inFilter .primary .delete rule, .inFilter .secondary .delete rule] es r ∧
      k.Asks s es t ∧ SameHoles s t := by
  obtain ⟨a, t, ha, asks, same⟩ := k.on_applyReported .primary .delete rule what s
  rw [applyBoth, Action.on_bind, ha]
  by_cases hcut : a.reply = .cut
  · rw [hcut]
    exact ⟨_, _, t, rfl, .cut hcut, asks, same⟩
  have hresult : a.reply.result = .ok (a.reply = .done) := Reply.result_of_ne_cut hcut
  obtain ⟨b, u, hb, asks', same'⟩ := k.on_applyReported .secondary .delete rule what t
  have hverb : (Verb.delete == Verb.add) = false := rfl
  simp only [hresult, hverb, Bool.and_false, Bool.false_eq_true, if_false, Action.on_bind, hb]
  by_cases hcut' : b.reply = .cut
  · rw [hcut']
    exact ⟨_, _, u, rfl, .cons hcut (.cut hcut'), asks.trans asks', same.trans same'⟩
  · have hresult' : b.reply.result = .ok (b.reply = .done) := Reply.result_of_ne_cut hcut'
    rw [hresult']
    exact ⟨_, _, u, rfl, .cons hcut (.single hcut'), asks.trans asks', same.trans same'⟩

/-- Taking a step goes through its changes. -/
theorem on_applyStep_add (step : SteeringStep) (s : Session) :
    ∃ es r t, (k.applyStep .add step).on s = (r, t) ∧ Adding (k.stepChanges .add step) es r ∧
      k.Asks s es t ∧ SameHoles s t := by
  cases step with
  | policy version =>
    obtain ⟨a, t, ha, asks, same⟩ :=
      k.on_apply ⟨.routing, .add, k.stepRule (.policy version)⟩ s
    refine ⟨_, _, t, ha, ?_, asks, same⟩
    cases hreply : a.reply with
    | done => exact .cons hreply .nil
    | refused => exact .refused hreply
    | cut => exact .cut hreply
  | masquerade interface => exact k.on_applyBoth_add _ _ s
  | mark user => exact k.on_applyBoth_add _ _ s

/-- Taking a step back goes through its changes. -/
theorem on_applyStep_delete (step : SteeringStep) (s : Session) :
    ∃ es r t, (k.applyStep .delete step).on s = (r, t) ∧
      Deleting (k.stepChanges .delete step) es r ∧ k.Asks s es t ∧ SameHoles s t := by
  cases step with
  | policy version =>
    obtain ⟨a, t, ha, asks, same⟩ :=
      k.on_apply ⟨.routing, .delete, k.stepRule (.policy version)⟩ s
    refine ⟨_, _, t, ha, ?_, asks, same⟩
    by_cases hcut : a.reply = .cut
    · rw [hcut]
      exact .cut hcut
    · rw [Reply.result_of_ne_cut hcut]
      exact .single hcut
  | masquerade interface => exact k.on_applyBoth_delete _ _ s
  | mark user => exact k.on_applyBoth_delete _ _ s

/-- Taking back some steps goes through the changes of all of them. -/
theorem on_removeEach (label : String) (steps : List SteeringStep) (s : Session) :
    ∃ es r t, (k.removeEach label steps).on s = (r, t) ∧ Deleting (k.changes .delete steps) es r ∧
      k.Asks s es t ∧ SameHoles s t := by
  induction steps generalizing s with
  | nil => exact ⟨[], _, s, rfl, .nil, .refl k s, ⟨rfl, rfl⟩⟩
  | cons step steps ih =>
    obtain ⟨t, ht, asks, same⟩ := k.on_say .debug (label ++ "Remove " ++ step.subject) s
    obtain ⟨es, r, u, hu, course, asks', same'⟩ := k.on_applyStep_delete step t
    have asks_su : k.Asks s es u := asks.trans asks'
    have same_su : SameHoles s u := same.trans same'
    simp only [removeEach, Action.on_bind, ht, hu]
    cases r with
    | error e => exact ⟨es, _, u, rfl, course.stopped _, asks_su, same_su⟩
    | ok done =>
      -- A refusal is reported before the next step; the report is no exchange.
      obtain ⟨v, hv, asks_sv, same_sv⟩ : ∃ v,
          (if !done then k.say .error (label ++ "Remove " ++ step.subject ++ " failed")
            else pure () : Action Unit).on u = (.ok (), v) ∧ k.Asks s es v ∧ SameHoles s v := by
        cases done with
        | true => exact ⟨u, rfl, asks_su, same_su⟩
        | false =>
          obtain ⟨v, hv, asks'', same''⟩ :=
            k.on_say .error (label ++ "Remove " ++ step.subject ++ " failed") u
          exact ⟨v, hv, asks_su.trans_nil asks'', same_su.trans same''⟩
      obtain ⟨fs, q, w, hw, course', asks_vw, same_vw⟩ := ih v
      refine ⟨es ++ fs, q.map (done && ·), w, ?_, course.append course', asks_sv.trans asks_vw,
        same_sv.trans same_vw⟩
      have hgo : (do let rest ← k.removeEach label steps; pure (done && rest)).on v =
          (q.map (done && ·), w) := by
        rw [Action.on_map, hw]
      cases done with
      | true =>
        have huv : u = v := congrArg Prod.snd hv
        rw [huv]
        exact hgo
      | false =>
        simp only [Bool.not_false, if_true] at hv ⊢
        rw [Action.on_bind, hv]
        exact hgo

/-- Undoing some steps goes back through the changes of all of them. -/
theorem on_undo (installed : List SteeringStep) (s : Session) :
    ∃ es r t, (k.undo installed).on s = (r, t) ∧
      Deleting (k.changes .delete installed.reverse) es r ∧ k.Asks s es t ∧ SameHoles s t := by
  obtain ⟨t, ht, asks, same⟩ := k.on_say .warn "Rolling back VPN setup..." s
  obtain ⟨es, r, u, hu, course, asks', same'⟩ := k.on_removeEach "Rollback: " installed.reverse t
  refine ⟨es, r, u, ?_, course, asks.trans asks', same.trans same'⟩
  rw [undo, Action.on_bind, ht]
  exact hu

/-- The outcome of a setup that is given up at a step, by how undoing the others ended. -/
def givenUp (step : SteeringStep) : Except Stop Bool → Except Stop Outcome
  | .ok _ => .ok (.external ("Adding " ++ step.subject ++ " failed"))
  | .error e => .error e

/-- Giving up a setup undoes what is installed. -/
theorem on_abort (installed : List SteeringStep) (step : SteeringStep) (s : Session) :
    ∃ es r t, (k.abort installed step).on s = (givenUp step r, t) ∧
      Deleting (k.changes .delete installed.reverse) es r ∧ k.Asks s es t ∧ SameHoles s t := by
  obtain ⟨t, ht, asks, same⟩ := k.on_say .error ("Adding " ++ step.subject ++ " failed") s
  simp only [abort, Action.on_bind, ht]
  cases hinstalled : installed.isEmpty with
  | true =>
    have hnil : installed = [] := List.isEmpty_iff.1 hinstalled
    subst hnil
    exact ⟨[], .ok true, t, rfl, .nil, asks, same⟩
  | false =>
    obtain ⟨es, r, u, hu, course, asks', same'⟩ := k.on_undo installed t
    have asks_su : k.Asks s es u := asks.trans asks'
    have same_su : SameHoles s u := same.trans same'
    simp only [Bool.not_false, if_true, Action.on_bind, hu]
    match r with
    | .error e => exact ⟨es, .error e, u, rfl, course, asks_su, same_su⟩
    | .ok true => exact ⟨es, .ok true, u, rfl, course, asks_su, same_su⟩
    | .ok false =>
      obtain ⟨v, hv, asks'', same''⟩ :=
        k.on_say .error "Rollback of VPN setup was incomplete" u
      refine ⟨es, .ok false, v, ?_, course, asks_su.trans_nil asks'', same_su.trans same''⟩
      simp only [Bool.not_false, if_true, Action.on_bind, hv]
      rfl

end Toolkit

/-- What taking some steps comes to, after those that are installed. -/
inductive Installing (k : Toolkit) (installed steps : List SteeringStep) :
    List Exchange → Except Stop Outcome → Prop
  | finished {es : List Exchange} (up : Adding (k.changes .add steps) es (.ok true)) :
    Installing k installed steps es (.ok .success)
  | cut {es : List Exchange} {e : Stop} (up : Adding (k.changes .add steps) es (.error e)) :
    Installing k installed steps es (.error e)
  | aborted {before after : List SteeringStep} {step : SteeringStep} {es fs gs : List Exchange}
    {r : Except Stop Bool} (hsteps : steps = before ++ step :: after)
    (up : Adding (k.changes .add before) es (.ok true))
    (failed : Adding (k.stepChanges .add step) fs (.ok false))
    (down : Deleting (k.changes .delete (installed ++ before).reverse) gs r) :
    Installing k installed steps (es ++ (fs ++ gs)) (Toolkit.givenUp step r)

/-- Only changes of steps are asked for. -/
theorem Installing.change_mem {k : Toolkit} {installed steps : List SteeringStep}
    {es : List Exchange} {r : Except Stop Outcome} (h : Installing k installed steps es r)
    {e : Exchange} (he : e ∈ es) : ∃ verb steps', e.change ∈ k.changes verb steps' := by
  cases h with
  | finished up => exact ⟨_, _, up.change_mem he⟩
  | cut up => exact ⟨_, _, up.change_mem he⟩
  | @aborted before after step es fs gs r hsteps up failed down =>
    rcases List.mem_append.1 he with he | he
    · exact ⟨_, _, up.change_mem he⟩
    rcases List.mem_append.1 he with he | he
    · have hc : e.change ∈ k.changes .add [step] :=
        List.mem_flatMap.2 ⟨step, List.mem_cons_self, failed.change_mem he⟩
      exact ⟨_, _, hc⟩
    · exact ⟨_, _, down.change_mem he⟩

namespace Toolkit

variable (k : Toolkit)

/-- Taking some steps comes to one of the things of `Installing`. -/
theorem on_install (installed steps : List SteeringStep) (s : Session) :
    ∃ es r t, (k.install installed steps).on s = (r, t) ∧ Installing k installed steps es r ∧
      k.Asks s es t ∧ SameHoles s t := by
  induction steps generalizing installed s with
  | nil => exact ⟨[], _, s, rfl, .finished .nil, .refl k s, ⟨rfl, rfl⟩⟩
  | cons step steps ih =>
    obtain ⟨es, r, t, ht, course, asks, same⟩ := k.on_applyStep_add step s
    simp only [install, Action.on_bind, ht]
    match r with
    | .error e =>
      exact ⟨es, .error e, t, rfl, .cut (course.stopped (by simp) _), asks, same⟩
    | .ok false =>
      obtain ⟨gs, q, u, hu, down, asks', same'⟩ := k.on_abort installed step t
      rw [← List.append_nil installed] at down
      have up : Adding (k.changes .add []) [] (.ok true) := .nil
      exact ⟨es ++ gs, _, u, hu, .aborted rfl up course down, asks.trans asks', same.trans same'⟩
    | .ok true =>
      -- The step just taken is one of those that a later failure takes back.
      obtain ⟨fs, q, u, hu, rest, asks', same'⟩ := ih (installed ++ [step]) t
      refine ⟨es ++ fs, q, u, hu, ?_, asks.trans asks', same.trans same'⟩
      cases rest with
      | finished up => exact .finished (course.append up)
      | cut up => exact .cut (course.append up)
      | @aborted before after failedStep es' fs' gs r hsteps up failed down =>
        rw [List.append_assoc] at down
        rw [← List.append_assoc]
        have up' : Adding (k.changes .add (step :: before)) (es ++ es') (.ok true) :=
          course.append up
        exact .aborted (by rw [hsteps]; rfl) up' failed down

/-- Reporting the names that are skipped is no exchange. -/
theorem on_skipEach (users : List String) (s : Session) :
    ∃ t, (k.skipEach users).on s = (.ok (), t) ∧ k.Asks s [] t ∧ SameHoles s t := by
  induction users generalizing s with
  | nil => exact ⟨s, rfl, .refl k s, ⟨rfl, rfl⟩⟩
  | cons user users ih =>
    obtain ⟨t, ht, asks, same⟩ := k.on_say .error
      ("Skipping removal of mark: " ++ (Input.userFailure user).message) s
    obtain ⟨u, hu, asks', same'⟩ := ih t
    refine ⟨u, ?_, asks.trans asks', same.trans same'⟩
    rw [skipEach, Action.on_bind, ht]
    exact hu

/-- The outcome of taking back the steering of users, by how deleting went. -/
def tornDown (users : List String) (interface : String) : Except Stop Bool → Except Stop Outcome
  | .error e => .error e
  | .ok removed =>
    let skipped := users.filter (!Input.isUser ·)
    if !skipped.isEmpty then
      .ok (.validation ("Invalid user name(s) skipped: " ++ ", ".intercalate skipped))
    else if removed then .ok .success
    else .ok (.external ("Removing VPN steering on '" ++ interface ++ "' failed"))

/-- Taking back the steering of users goes through the changes of all users whose names are well
formed. -/
theorem on_tearDown (users : List String) (interface : String) (s : Session) :
    ∃ es r t, (k.tearDown users interface).on s = (tornDown users interface r, t) ∧
      Deleting (k.changes .delete (SteeringStep.all (users.filter (Input.isUser ·)) interface))
        es r ∧
      k.Asks s es t ∧ SameHoles s t := by
  obtain ⟨t, ht, asks, same⟩ :=
    k.on_say .step ("Removing " ++ steeringText users interface) s
  obtain ⟨u, hu, asks', same'⟩ := k.on_skipEach (users.filter (!Input.isUser ·)) t
  obtain ⟨es, r, v, hv, course, asks'', same''⟩ := k.on_removeEach ""
    (SteeringStep.all (users.filter (Input.isUser ·)) interface) u
  refine ⟨es, r, v, ?_, course, (asks.trans asks').trans asks'', (same.trans same').trans same''⟩
  simp only [tearDown, Action.on_bind, ht, hu, hv]
  cases r with
  | error e => rfl
  | ok removed =>
    simp only [tornDown]
    split
    · rfl
    · split <;> rfl

end Toolkit

/-- What a request to steer comes to. -/
inductive Steering (k : Toolkit) (users : List String) (interface : String) (s t : Session) :
    Verb → Except Stop Outcome → Prop
  | badInterface {verb : Verb} {e : Input.InterfaceFault}
    (hinterface : Input.interface false interface = .error e) (asks : k.Asks s [] t)
    (same : SameHoles s t) : Steering k users interface s t verb (.ok (.validation e.failure.message))
  | badUser {user : String} (hinterface : Input.interface false interface = .ok interface)
    (huser : Toolkit.firstBadUser? users = some user) (asks : k.Asks s [] t)
    (same : SameHoles s t) :
    Steering k users interface s t .add (.ok (.validation (Input.userFailure user).message))
  | setUp {es : List Exchange} {r : Except Stop Outcome}
    (hinterface : Input.interface false interface = .ok interface)
    (husers : Toolkit.firstBadUser? users = none)
    (course : Installing k [] (SteeringStep.all users interface) es r) (asks : k.Asks s es t)
    (same : SameHoles s t) : Steering k users interface s t .add r
  | tearDown {es : List Exchange} {r : Except Stop Bool}
    (hinterface : Input.interface false interface = .ok interface)
    (course : Deleting (k.changes .delete
      (SteeringStep.all (users.filter (Input.isUser ·)) interface)) es r)
    (asks : k.Asks s es t) (same : SameHoles s t) :
    Steering k users interface s t .delete (Toolkit.tornDown users interface r)

namespace Toolkit

variable (k : Toolkit)

/-- A request to steer comes to one of the things of `Steering`. -/
theorem on_steer (users : List String) (interface : String) (verb : Verb) (s : Session) :
    ∃ r t, (k.steer users interface verb).on s = (r, t) ∧
      Steering k users interface s t verb r := by
  unfold steer
  cases hinterface : Input.interface false interface with
  | error e =>
    obtain ⟨t, ht, asks, same⟩ := k.on_say .error e.failure.message s
    refine ⟨_, t, ?_, .badInterface hinterface asks same⟩
    rw [Action.on_bind, ht]
    rfl
  | ok i =>
    have hi : i = interface := (Input.interface_eq_ok hinterface).1
    rw [hi] at hinterface ⊢
    cases verb with
    | delete =>
      obtain ⟨es, r, t, ht, course, asks, same⟩ := k.on_tearDown users interface s
      exact ⟨_, t, ht, .tearDown hinterface course asks same⟩
    | add =>
      cases huser : firstBadUser? users with
      | some user =>
        obtain ⟨t, ht, asks, same⟩ := k.on_say .error (Input.userFailure user).message s
        refine ⟨_, t, ?_, .badUser hinterface huser asks same⟩
        simp only [Action.on_bind, ht]
        rfl
      | none =>
        obtain ⟨t, ht, asks, same⟩ :=
          k.on_say .step ("Setting up " ++ steeringText users interface) s
        obtain ⟨es, r, u, hu, course, asks', same'⟩ :=
          k.on_install [] (SteeringStep.all users interface) t
        refine ⟨_, u, ?_, .setUp hinterface huser course (asks.trans asks') (same.trans same')⟩
        simp only [setUp, Action.on_bind, ht]
        exact hu

end Toolkit

end Pinhole
