import Pinhole.Proofs.SetUp

/-!
# What a setup asks for

The course of a setup is decided by the first change that is refused. Up to it each change of each
step is asked for in turn; after it the steps that were completed are taken back, the newest first,
whatever the tools say to that. The step that failed is neither completed nor taken back.
`setUp_asks` says so.
-/

namespace Pinhole

section Courses

variable {k : Toolkit} {cs : List Change} {es : List Exchange} {r : Except Stop Bool}

/-- Adding that was refused did what was asked up to the change that was refused, and asked for
nothing more. -/
theorem Adding.up_to_refusal (h : Adding cs es (.ok false)) :
    ∃ made c left ups a, cs = made ++ c :: left ∧ es = ups ++ [⟨c, a⟩] ∧
      ups.map (·.change) = made ∧ (∀ e ∈ ups, e.answer.reply = .done) ∧ a.reply = .refused := by
  generalize hr : (Except.ok false : Except Stop Bool) = q at h
  induction h with
  | nil => cases hr
  | cut ha => cases hr
  | @refused c cs a ha => exact ⟨[], c, cs, [], a, rfl, rfl, rfl, by simp, ha⟩
  | @cons c cs a es r ha rest ih =>
    obtain ⟨made, d, left, ups, b, rfl, rfl, hups, done, hb⟩ := ih hr
    refine ⟨c :: made, d, left, ⟨c, a⟩ :: ups, b, rfl, rfl, ?_, ?_, hb⟩
    · rw [List.map_cons, hups]
    · exact List.forall_mem_cons.2 ⟨ha, done⟩

/-- Deleting that was interrupted has an interrupted exchange. -/
theorem Deleting.exists_cut {x : Stop} (h : Deleting cs es (.error x)) :
    ∃ e ∈ es, e.answer.reply = .cut := by
  generalize hr : (Except.error x : Except Stop Bool) = q at h
  induction h with
  | nil => cases hr
  | @cons c cs a es q ha rest ih =>
    cases q with
    | ok b => cases hr
    | error y =>
      obtain ⟨e, he, hcut⟩ := ih hr
      exact ⟨e, List.mem_cons_of_mem _ he, hcut⟩
  | cut ha => exact ⟨_, List.mem_cons_self, ha⟩

/-- Deleting asks for everything that is to be deleted, whatever the tools say to it. -/
theorem Deleting.changes_eq (h : Deleting cs es r) (uncut : ∀ e ∈ es, e.answer.reply ≠ .cut) :
    es.map (·.change) = cs := by
  induction h with
  | nil => rfl
  | cut ha => exact absurd ha (uncut _ List.mem_cons_self)
  | cons ha rest ih =>
    rw [List.map_cons, ih fun e he => uncut e (List.mem_cons_of_mem _ he)]

end Courses

/-- A list is divided in one way only at an exchange of which there is none before. -/
theorem divided_once {ups ups' downs downs' : List Exchange} {e e' : Exchange}
    (h : ups ++ e :: downs = ups' ++ e' :: downs') (first : e ∉ ups') (first' : e' ∉ ups) :
    ups = ups' ∧ e = e' ∧ downs = downs' := by
  rcases List.append_eq_append_iff.1 h with ⟨mid, hups, hrest⟩ | ⟨mid, hups, hrest⟩
  · cases mid with
    | nil =>
      obtain ⟨rfl, rfl⟩ := List.cons.inj hrest
      exact ⟨by rw [hups, List.append_nil], rfl, rfl⟩
    | cons d mid =>
      obtain ⟨rfl, -⟩ := List.cons.inj hrest
      exact absurd (by simp [hups]) first
  · cases mid with
    | nil =>
      obtain ⟨rfl, rfl⟩ := List.cons.inj hrest
      exact ⟨by rw [hups, List.append_nil], rfl, rfl⟩
    | cons d mid =>
      obtain ⟨rfl, -⟩ := List.cons.inj hrest
      exact absurd (by simp [hups]) first'

/-- What a setup of some steps has asked for that failed at one of them: all changes of the steps
before and some of its own, then the change that was refused, and then the changes that take the
steps before back, the newest first. -/
structure FailedAt (k : Toolkit) (before : List SteeringStep) (step : SteeringStep)
    (ups : List Exchange) (refused : Change) (downs : List Exchange) : Prop where
  ups : ∃ made left, k.stepChanges .add step = made ++ refused :: left ∧
    ups.map (·.change) = k.changes .add before ++ made
  downs : downs.map (·.change) = k.changes .delete before.reverse

/-- Taking steps either asks for the additions of all of them, or fails at the first addition that
is refused. -/
theorem Installing.asks {k : Toolkit} {steps : List SteeringStep} {es : List Exchange}
    {r : Except Stop Outcome} (h : Installing k [] steps es r)
    (uncut : ∀ e ∈ es, e.answer.reply ≠ .cut) :
    ((∀ e ∈ es, e.answer.reply = .done) ∧ es.map (·.change) = k.changes .add steps ∧
        r = .ok .success) ∨
      ∃ before step after ups e downs, steps = before ++ step :: after ∧
        es = ups ++ e :: downs ∧ (∀ d ∈ ups, d.answer.reply = .done) ∧ e.change.verb = .add ∧
        e.answer.reply = .refused ∧ FailedAt k before step ups e.change downs ∧
        r = .ok (.external ("Adding " ++ step.subject ++ " failed")) := by
  have does : ∀ {steps es}, Adding (k.changes .add steps) es (.ok true) →
      Does .add (k.changes .add steps) es :=
    fun up => up.does fun c hc => Toolkit.verb_of_mem_changes hc
  cases h with
  | finished up => exact Or.inl ⟨(does up).replies, (does up).changes, rfl⟩
  | cut up =>
    obtain ⟨e, he, hcut⟩ := up.exists_cut
    exact absurd hcut (uncut e he)
  | @aborted before after step es fs gs r hsteps up failed down =>
    obtain ⟨made, c, left, ups, a, hstep, rfl, hups, done, ha⟩ := failed.up_to_refusal
    have hverb : c.verb = .add := by
      have hc : c ∈ k.stepChanges .add step := by simp [hstep]
      obtain ⟨tool, -, rfl⟩ := List.mem_map.1 hc
      rfl
    have down_uncut : ∀ e ∈ gs, e.answer.reply ≠ .cut := fun e he => uncut e (by simp [he])
    refine Or.inr ⟨before, step, after, es ++ ups, ⟨c, a⟩, gs, hsteps, by simp, ?_, hverb, ha,
      ⟨⟨made, left, hstep, ?_⟩, down.changes_eq down_uncut⟩, ?_⟩
    · exact List.forall_mem_append.2 ⟨(does up).replies, done⟩
    · rw [List.map_append, (does up).changes, hups]
    · cases r with
      | ok b => rfl
      | error x =>
        obtain ⟨e, he, hcut⟩ := down.exists_cut
        exact absurd hcut (down_uncut e he)

/-- Let a setup have well-formed names, and let nobody interrupt it. If no addition is refused, it
asks for the additions of all steps and succeeds. Otherwise the first addition that is refused
belongs to a step at which it fails, and its outcome names this step. -/
theorem setUp_asks (k : Toolkit) {users : List String} {interface : String}
    (named : ∀ user ∈ users, Input.isUser user = true) (nonempty : interface ≠ "")
    (wellFormed : Input.isInterface interface = true) (s : Session) :
    ∃ es r t, (k.steer users interface .add).on s = (r, t) ∧ k.Asks s es t ∧
      ((∀ e ∈ es, e.answer.reply ≠ .cut) →
        ((∀ e ∈ es, e.change.verb = .add → e.answer.reply = .done) →
          es.map (·.change) = k.changes .add (SteeringStep.all users interface) ∧
            r = .ok .success) ∧
        ∀ ups e downs, es = ups ++ e :: downs →
          (∀ d ∈ ups, d.change.verb = .add → d.answer.reply = .done) →
          e.change.verb = .add → e.answer.reply ≠ .done →
          ∃ before step after, SteeringStep.all users interface = before ++ step :: after ∧
            FailedAt k before step ups e.change downs ∧
            r = .ok (.external ("Adding " ++ step.subject ++ " failed"))) := by
  obtain ⟨r, t, ht, course⟩ := k.on_steer users interface .add s
  cases course with
  | badInterface hinterface asks same =>
    rw [Input.interface_eq_ok_self nonempty wellFormed] at hinterface
    cases hinterface
  | badUser hinterface huser asks same =>
    have hbad := List.find?_some huser
    simp [named _ (List.mem_of_find?_eq_some huser)] at hbad
  | @setUp es r hinterface husers course asks same =>
    refine ⟨es, r, t, ht, asks, fun uncut => ?_⟩
    rcases course.asks uncut with ⟨done, changes, hr⟩ |
      ⟨before, step, after, ups, e, downs, hsteps, rfl, done, hverb, hrefused, failed, hr⟩
    · refine ⟨fun _ => ⟨changes, hr⟩, fun ups e downs hes _ _ hrefused => ?_⟩
      exact absurd (done e (by simp [hes])) hrefused
    · refine ⟨fun all => ?_, fun ups' e' downs' hes done' hverb' hrefused' => ?_⟩
      · have hdone : e.answer.reply = .done := all e (by simp) hverb
        rw [hrefused] at hdone
        cases hdone
      · -- There is one first addition that was not made.
        have hne : e' ∉ ups := fun he => hrefused' (done e' he)
        have hne' : e ∉ ups' := fun he => by
          have hdone : e.answer.reply = .done := done' e he hverb
          rw [hrefused] at hdone
          cases hdone
        obtain ⟨rfl, rfl, rfl⟩ := divided_once hes hne' hne
        exact ⟨before, step, after, hsteps, failed, hr⟩

/-- The mark of the second of two users is refused by the primary filter. The first user's mark,
which cannot be deleted in that filter any more, and all that was done before it are taken back. -/
theorem setUp_fails_at_second_user :
    let k := Toolkit.scripted
      [.silent, .silent, .silent, .silent, .silent, .silent, .refusal, .refusal]
    let x := (k.steer ["alice", "bob"] "tun0" .add).on {}
    let es := x.2.exchanges
    ∃ before step after,
      SteeringStep.all ["alice", "bob"] "tun0" = before ++ step :: after ∧
        FailedAt k before step (es.take 6) (.inFilter .primary .add (.mark "bob" "1")) (es.drop 7) ∧
        x.1 = .ok (.external ("Adding " ++ step.subject ++ " failed")) := by
  intro k x es
  have named : ∀ user ∈ ["alice", "bob"], Input.isUser user = true := by decide +kernel
  have wellFormed : Input.isInterface "tun0" = true := by decide +kernel
  obtain ⟨fs, r, t, ht, asks, course⟩ := setUp_asks k named (by decide) wellFormed {}
  have hx : x = (r, t) := ht
  have log : t.exchanges = fs := (asks.exchanges rfl).trans (List.nil_append fs)
  obtain rfl : es = fs := (congrArg (·.2.exchanges) hx).trans log
  obtain rfl : x.1 = r := congrArg (·.1) hx
  have uncut : ∀ e ∈ es, e.answer.reply ≠ .cut := by decide +kernel
  have split : es = es.take 6 ++
      ⟨.inFilter .primary .add (.mark "bob" "1"), .refusal⟩ :: es.drop 7 := by decide +kernel
  have done : ∀ d ∈ es.take 6, d.change.verb = .add → d.answer.reply = .done := by
    decide +kernel
  exact (course uncut).2 _ _ _ split done rfl (by decide)

end Pinhole
