import Pinhole.Proofs.Ledger
import Pinhole.Proofs.Service

/-!
# What a failed setup leaves behind

A setup that fails takes back the steps before the one that failed, but not that step itself. A step
for both filters can fail half-way: the primary filter takes the rule and the secondary one refuses.
`after_failed_setUp` says that, as long as deleting works, this half is all that a failed setup
leaves behind.
-/

namespace Pinhole

/-! ## Many changes at once -/

/-- Each of some exchanges did what was asked. -/
structure Does (verb : Verb) (cs : List Change) (es : List Exchange) : Prop where
  changes : es.map (·.change) = cs
  verbs : ∀ c ∈ cs, c.verb = verb
  replies : ∀ e ∈ es, e.answer.reply = .done

section Many

variable {m : Ledger} {cs : List Change} {es : List Exchange}

theorem Does.cons_iff {verb : Verb} {c : Change} {e : Exchange} :
    Does verb (c :: cs) (e :: es) ↔
      e.change = c ∧ c.verb = verb ∧ e.answer.reply = .done ∧ Does verb cs es := by
  constructor
  · rintro ⟨changes, verbs, replies⟩
    obtain ⟨hchange, hrest⟩ := List.cons.inj changes
    exact ⟨hchange, verbs c List.mem_cons_self, replies e List.mem_cons_self, hrest,
      fun d hd => verbs d (List.mem_cons_of_mem c hd),
      fun d hd => replies d (List.mem_cons_of_mem e hd)⟩
  · rintro ⟨rfl, hverb, hreply, changes, verbs, replies⟩
    exact ⟨by rw [List.map_cons, changes], by simpa [hverb] using verbs,
      by simpa [hreply] using replies⟩

/-- Adding puts in one copy for each change. -/
theorem Does.count_add (h : Does .add cs es) (t : Tool) (r : Rule) :
    (m.after es t).count r = (m t).count r + (cs.map Ledger.place).count (t, r) := by
  induction es generalizing m cs with
  | nil =>
    have hnil : cs = [] := h.changes.symm
    simp [hnil]
  | cons e es ih =>
    cases cs with
    | nil => cases h.changes
    | cons c cs =>
      obtain ⟨rfl, hverb, hreply, rest⟩ := Does.cons_iff.1 h
      rw [Ledger.after_cons, ih rest, List.map_cons, List.count_cons, Ledger.step, if_pos hreply,
        Ledger.count_change_add m hverb]
      simp only [beq_iff_eq]
      omega

/-- Deleting takes out one copy for each change, as far as there are any. -/
theorem Does.count_delete (h : Does .delete cs es) (t : Tool) (r : Rule) :
    (m.after es t).count r = (m t).count r - (cs.map Ledger.place).count (t, r) := by
  induction es generalizing m cs with
  | nil =>
    have hnil : cs = [] := h.changes.symm
    simp [hnil]
  | cons e es ih =>
    cases cs with
    | nil => cases h.changes
    | cons c cs =>
      obtain ⟨rfl, hverb, hreply, rest⟩ := Does.cons_iff.1 h
      rw [Ledger.after_cons, ih rest, List.map_cons, List.count_cons, Ledger.step, if_pos hreply,
        Ledger.count_change_delete m hverb]
      simp only [beq_iff_eq]
      omega

/-- Adding is undone by deleting the same in whatever order. What was added in between stays, and
what was refused in between is of no effect. -/
theorem after_undone {adds mids dels : List Change} {es fs gs : List Exchange} {e : Exchange}
    (m : Ledger) (up : Does .add adds es) (mid : Does .add mids fs)
    (refused : e.answer.reply ≠ .done) (down : Does .delete dels gs)
    (same : (adds.map Ledger.place).Perm (dels.map Ledger.place)) :
    m.after (es ++ (fs ++ e :: gs)) = m.after fs := by
  -- What comes out at a place went in there before, so taking out never finds the place empty.
  refine Ledger.ext_count fun t r => ?_
  have hup := up.count_add (m := m) t r
  have hmid := mid.count_add (m := m.after es) t r
  have hmid' := mid.count_add (m := m) t r
  have hdown := down.count_delete (m := (m.after es).after fs) t r
  have hsame := same.count_eq (t, r)
  rw [Ledger.after_append, Ledger.after_append, Ledger.after_cons, Ledger.step, if_neg refused,
    hdown, hmid, hup, hmid', hsame]
  omega

end Many

/-! ## Courses without an interrupt -/

section Courses

variable {k : Toolkit} {cs : List Change} {es : List Exchange} {r : Except Stop Bool}

/-- Adding that succeeded did everything that was asked. -/
theorem Adding.does (h : Adding cs es (.ok true)) (verbs : ∀ c ∈ cs, c.verb = .add) :
    Does .add cs es := by
  generalize hr : (Except.ok true : Except Stop Bool) = q at h
  induction h with
  | nil => exact ⟨rfl, by simp, by simp⟩
  | @cons c cs a es r ha rest ih =>
    obtain ⟨hverb, hverbs⟩ := List.forall_mem_cons.1 verbs
    exact Does.cons_iff.2 ⟨rfl, hverb, ha, ih hverbs hr⟩
  | refused ha => cases hr
  | cut ha => cases hr

/-- Adding that was interrupted has an interrupted exchange. -/
theorem Adding.exists_cut {x : Stop} (h : Adding cs es (.error x)) :
    ∃ e ∈ es, e.answer.reply = .cut := by
  generalize hr : (Except.error x : Except Stop Bool) = q at h
  induction h with
  | nil => cases hr
  | cons ha rest ih =>
    obtain ⟨e, he, hcut⟩ := ih hr
    exact ⟨e, List.mem_cons_of_mem _ he, hcut⟩
  | refused ha => cases hr
  | cut ha => exact ⟨_, List.mem_cons_self, ha⟩

/-- Deleting in which every answer was a success did everything that was asked. -/
theorem Deleting.does (h : Deleting cs es r) (verbs : ∀ c ∈ cs, c.verb = .delete)
    (replies : ∀ e ∈ es, e.answer.reply = .done) : Does .delete cs es := by
  induction h with
  | nil => exact ⟨rfl, by simp, by simp⟩
  | @cons c cs a es r ha rest ih =>
    obtain ⟨hverb, hverbs⟩ := List.forall_mem_cons.1 verbs
    obtain ⟨hreply, hreplies⟩ := List.forall_mem_cons.1 replies
    exact Does.cons_iff.2 ⟨rfl, hverb, hreply, ih hverbs hreplies⟩
  | @cut c cs a ha =>
    have hdone : a.reply = .done := replies _ List.mem_cons_self
    rw [ha] at hdone
    cases hdone

/-- What is refused in two filters is refused in the primary one, or in the secondary one after the
primary one took it. -/
theorem Adding.both_refused {rule : Rule}
    (h : Adding [.inFilter .primary .add rule, .inFilter .secondary .add rule] es (.ok false)) :
    (∃ a, es = [⟨.inFilter .primary .add rule, a⟩] ∧ a.reply = .refused) ∨
      ∃ a b, es = [⟨.inFilter .primary .add rule, a⟩, ⟨.inFilter .secondary .add rule, b⟩] ∧
        a.reply = .done ∧ b.reply = .refused := by
  cases h with
  | refused ha => exact Or.inl ⟨_, rfl, ha⟩
  | cons ha rest =>
    cases rest with
    | refused hb => exact Or.inr ⟨_, _, rfl, ha, hb⟩
    | cons hb rest => cases rest

/-- A step that is refused fails at its first change, which does not concern the secondary filter,
or in the secondary filter after the primary one took the rule. -/
theorem Adding.step_refused {step : SteeringStep}
    (h : Adding (k.stepChanges .add step) es (.ok false)) :
    (∃ c a, es = [⟨c, a⟩] ∧ a.reply = .refused ∧ c.tool ≠ .filter .secondary) ∨
      ∃ rule a b, es = [⟨.inFilter .primary .add rule, a⟩, ⟨.inFilter .secondary .add rule, b⟩] ∧
        a.reply = .done ∧ b.reply = .refused := by
  have of_both : ∀ rule,
      Adding [.inFilter .primary .add rule, .inFilter .secondary .add rule] es (.ok false) →
      (∃ c a, es = [⟨c, a⟩] ∧ a.reply = .refused ∧ c.tool ≠ .filter .secondary) ∨
        ∃ rule a b, es =
          [⟨.inFilter .primary .add rule, a⟩, ⟨.inFilter .secondary .add rule, b⟩] ∧
          a.reply = .done ∧ b.reply = .refused := by
    intro rule h
    rcases h.both_refused with ⟨a, hes, ha⟩ | ⟨a, b, hes, ha, hb⟩
    · exact Or.inl ⟨_, a, hes, ha, by simp [Change.inFilter]⟩
    · exact Or.inr ⟨rule, a, b, hes, ha, hb⟩
  cases step with
  | masquerade interface => exact of_both _ h
  | mark user => exact of_both _ h
  | policy version =>
    cases h with
    | refused ha => exact Or.inl ⟨_, _, rfl, ha, by simp⟩
    | cons ha rest => cases rest

theorem Toolkit.verb_of_mem_changes {verb : Verb} {steps : List SteeringStep} {c : Change}
    (h : c ∈ k.changes verb steps) : c.verb = verb := by
  obtain ⟨step, -, hc⟩ := List.mem_flatMap.1 h
  obtain ⟨tool, -, rfl⟩ := List.mem_map.1 hc
  rfl

/-- The changes that steps are concern the same as those that take them back in whatever order. -/
theorem Toolkit.perm_place_changes (k : Toolkit) (verb verb' : Verb)
    {steps steps' : List SteeringStep} (h : steps.Perm steps') :
    ((k.changes verb steps).map Ledger.place).Perm ((k.changes verb' steps').map Ledger.place) := by
  -- What a change concerns has nothing to do with its verb.
  have hplace : ∀ (v : Verb) (l : List SteeringStep), (k.changes v l).map Ledger.place =
      l.flatMap fun step => step.tools.map fun tool => (tool, k.stepRule step) := by
    intro v l
    rw [changes, List.map_flatMap]
    simp only [stepChanges, List.map_map]
    rfl
  rw [hplace, hplace]
  exact h.flatMap_right _

end Courses

/-! ## What stays -/

/-- What a failed setup leaves behind. If what failed was the secondary filter's half of a step, the
primary filter keeps one more copy of the rule of that step; otherwise all is as it was. -/
def Ledger.leftBehind (m : Ledger) (es : List Exchange) : Ledger :=
  match es.find? (·.answer.reply ≠ .done) with
  | some ⟨⟨.filter .secondary, _, rule⟩, _⟩ => m.change (.inFilter .primary .add rule)
  | _ => m

/-- A change that was made leaves it to what comes after. -/
theorem Ledger.leftBehind_cons (m : Ledger) {e : Exchange} (done : e.answer.reply = .done)
    (es : List Exchange) : m.leftBehind (e :: es) = m.leftBehind es := by
  rw [leftBehind, leftBehind, List.find?_cons_of_neg (by simp [done])]

/-- The first change that was not made decides what is left behind. -/
theorem Ledger.leftBehind_append (m : Ledger) {es : List Exchange}
    (done : ∀ e ∈ es, e.answer.reply = .done) (fs : List Exchange) :
    m.leftBehind (es ++ fs) = m.leftBehind fs := by
  induction es with
  | nil => rfl
  | cons e es ih =>
    obtain ⟨hdone, hrest⟩ := List.forall_mem_cons.1 done
    rw [List.cons_append, m.leftBehind_cons hdone, ih hrest]

/-- Taking steps that come to nothing leaves the half of one step behind at most, as long as
deleting works. -/
theorem Installing.leftBehind {k : Toolkit} {steps : List SteeringStep} {es : List Exchange}
    {r : Except Stop Outcome} (h : Installing k [] steps es r)
    (uncut : ∀ e ∈ es, e.answer.reply ≠ .cut)
    (deleted : ∀ e ∈ es, e.change.verb = .delete → e.answer.reply = .done)
    (failed : ∀ o, r = .ok o → o.isOk = false) (m : Ledger) : m.after es = m.leftBehind es := by
  cases h with
  | finished up =>
    have hok := failed _ rfl
    cases hok
  | cut up =>
    obtain ⟨e, he, hcut⟩ := up.exists_cut
    exact absurd hcut (uncut e he)
  | @aborted before after step es fs gs r hsteps up refused down =>
    have adds : Does .add (k.changes .add before) es :=
      up.does fun c hc => Toolkit.verb_of_mem_changes hc
    have dels : Does .delete (k.changes .delete before.reverse) gs := by
      refine down.does (fun c hc => Toolkit.verb_of_mem_changes hc) fun e he => ?_
      have hverb : e.change.verb = .delete := Toolkit.verb_of_mem_changes (down.change_mem he)
      exact deleted e (by simp [he]) hverb
    -- The failing step is neither among those that were taken nor among those taken back.
    have same := k.perm_place_changes .add .delete before.reverse_perm.symm
    rw [m.leftBehind_append adds.replies]
    rcases refused.step_refused with ⟨c, a, rfl, ha, htool⟩ | ⟨rule, a, b, rfl, ha, hb⟩
    · have none : Does .add [] [] := ⟨rfl, by simp, by simp⟩
      have hundone := after_undone m adds none (e := ⟨c, a⟩) (by simp [ha]) dels same
      refine hundone.trans ?_
      obtain ⟨tool, verb, rule⟩ := c
      rw [Ledger.leftBehind, List.singleton_append, List.find?_cons_of_pos (by simp [ha])]
      match tool with
      | .routing => rfl
      | .filter .primary => rfl
      | .filter .secondary => exact absurd rfl htool
    · have half : Does .add [.inFilter .primary .add rule] [⟨.inFilter .primary .add rule, a⟩] :=
        ⟨rfl, by simp [Change.inFilter], by simp [ha]⟩
      have hundone := after_undone m adds half (e := ⟨.inFilter .secondary .add rule, b⟩)
        (by simp [hb]) dels same
      refine hundone.trans ?_
      rw [List.cons_append, m.leftBehind_cons ha, Ledger.leftBehind, List.singleton_append,
        List.find?_cons_of_pos (by simp [hb]), Ledger.after_cons, Ledger.step, if_pos ha]
      rfl

/-- Let a setup come to nothing while deleting works and nobody interrupts. It leaves the rules as
they were, but for the half of a step that the secondary filter refused. -/
theorem after_failed_setUp {k : Toolkit} (live : k.executor.dryRun = false) (users : List String)
    (interface : String) (s : Session) {es : List Exchange}
    (log : ((k.steer users interface .add).on s).2.exchanges = s.exchanges ++ es)
    (uncut : ∀ e ∈ es, e.answer.reply ≠ .cut)
    (deleted : ∀ e ∈ es, e.change.verb = .delete → e.answer.reply = .done)
    (failed : ∀ o, ((k.steer users interface .add).on s).1 = .ok o → o.isOk = false)
    (m : Ledger) : m.after es = m.leftBehind es := by
  obtain ⟨r, t, ht, course⟩ := k.on_steer users interface .add s
  rw [ht] at log failed
  cases course with
  | badInterface hinterface asks same =>
    rw [asks.exchanges live, List.append_cancel_left_eq] at log
    rw [← log]
    rfl
  | badUser hinterface huser asks same =>
    rw [asks.exchanges live, List.append_cancel_left_eq] at log
    rw [← log]
    rfl
  | setUp hinterface husers course asks same =>
    rw [asks.exchanges live, List.append_cancel_left_eq] at log
    subst log
    exact course.leftBehind uncut deleted failed m

/-- A setup that the secondary filter refuses to masquerade for. -/
theorem after_setUp_without_masquerade :
    let k := Toolkit.scripted [.silent, .silent, .silent, .refusal]
    let es := ((k.steer ["alice"] "tun0" .add).on {}).2.exchanges
    Ledger.empty.after es = Ledger.empty.leftBehind es := by
  have hresult : (((Toolkit.scripted [.silent, .silent, .silent, .refusal]).steer ["alice"] "tun0"
      .add).on {}).1 = .ok (.external "Adding masquerade on 'tun0' failed") := by
    decide +kernel
  refine after_failed_setUp rfl ["alice"] "tun0" {} (List.nil_append _).symm (by decide +kernel)
    (by decide +kernel) (fun o ho => ?_) Ledger.empty
  have ho' : o = .external "Adding masquerade on 'tun0' failed" :=
    Except.ok.inj (ho.symm.trans hresult)
  rw [ho']
  rfl

/-- Such a setup is no success, and all of its deletions work. The masquerading stays in the primary
filter all the same. -/
theorem failed_setUp_leaves_masquerade :
    let k := Toolkit.scripted [.silent, .silent, .silent, .refusal]
    let es := ((k.steer ["alice"] "tun0" .add).on {}).2.exchanges
    ((k.steer ["alice"] "tun0" .add).on {}).1 =
        .ok (.external "Adding masquerade on 'tun0' failed") ∧
      (∀ e ∈ es, e.answer.reply ≠ .cut) ∧
      (∀ e ∈ es, e.change.verb = .delete → e.answer.reply = .done) ∧
      Ledger.empty.after es (.filter .primary) = {Rule.masquerade "tun0"} := by
  decide +kernel

end Pinhole
