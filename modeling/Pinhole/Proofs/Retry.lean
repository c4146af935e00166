import Pinhole.Proofs.Tracked

/-!
# Plugging again

A plug that fails leaves its hole tracked, so that plugging can be tried again. Let the secondary
filter be in use from the start, and let both filters tell the truth about deleting from some point
on. Then trying again succeeds exactly when both filters still keep a copy of the rule. If a plug was
done in half before, one of them does not: that filter rightly refuses to delete the rule, its
refusal is taken for a failure, and the hole stays tracked for ever (`Lost.moves`).

`retry_succeeds_iff` says so of every session that calls lead to, and that half a plug is the only
way to lose a copy.
-/

namespace Pinhole

/-- Both filters keep a copy of a rule. -/
def Ledger.Held (m : Ledger) (r : Rule) : Prop :=
  r ∈ m (.filter .primary) ∧ r ∈ m (.filter .secondary)

instance (m : Ledger) (r : Rule) : Decidable (m.Held r) := inferInstanceAs (Decidable (_ ∧ _))

theorem Ledger.held_iff {m : Ledger} {r : Rule} :
    m.Held r ↔ 0 < m.copies .primary r ∧ 0 < m.copies .secondary r := by
  rw [Held, mem_iff_copies, mem_iff_copies]

/-- What comes later and is about other rules leaves a rule where it is. -/
theorem Ledger.held_after_append_of_ne (m : Ledger) {r : Rule} {fs : List Exchange}
    (h : ∀ e ∈ fs, e.change.rule ≠ r) (es : List Exchange) :
    (m.after (es ++ fs)).Held r ↔ (m.after es).Held r := by
  rw [held_iff, held_iff, m.copies_after_append_of_ne h, m.copies_after_append_of_ne h]

/-- With truthful filters that are both in use, deleting a rule succeeds exactly when both keep a
copy. Each of them loses one copy if it has any. -/
theorem Unaccepting.eq_ok_held {m : Ledger} {rule : Rule} {es : List Exchange}
    {r : Except Stop Bool} (course : Unaccepting rule true es r)
    (opens : rule.isAccept = true) (uncut : ∀ e ∈ es, e.answer.reply ≠ .cut)
    (honest : m.Honest es) :
    r = .ok (decide (m.Held rule)) ∧ ∀ f, (m.after es).copies f rule = m.copies f rule - 1 := by
  cases course with
  | cutFirst ha => exact absurd ha (uncut _ List.mem_cons_self)
  | cutSecond ha hb => exact absurd hb (uncut _ (List.mem_cons_of_mem _ List.mem_cons_self))
  | @both a b ha hb =>
    simp only [Ledger.honest_delete_cons _ opens, Ledger.copies_secondary_step_primary] at honest
    obtain ⟨hprimary, hsecondary, -⟩ := honest
    refine ⟨by simp [Ledger.held_iff, hprimary, hsecondary], fun f => ?_⟩
    cases f with
    | primary =>
      simp only [Ledger.after_cons, Ledger.after_nil, Ledger.copies_primary_step_secondary,
        Ledger.copies_step_delete, hprimary]
      split <;> omega
    | secondary =>
      simp only [Ledger.after_cons, Ledger.after_nil, Ledger.copies_secondary_step_primary,
        Ledger.copies_step_delete, hsecondary]
      split <;> omega

/-! ## Filters that tell the truth from some point on -/

/-- The exchanges of a session since an earlier one. -/
def Session.since (s t : Session) : List Exchange := t.exchanges.drop s.exchanges.length

/-- Since an earlier session, deletions told the truth and no command was interrupted. -/
structure TruthfulSince (m : Ledger) (s t : Session) : Prop where
  uncut : ∀ e ∈ s.since t, e.answer.reply ≠ .cut
  honest : (m.after s.exchanges).Honest (s.since t)

/-- A tracked hole of which some filter has lost the rule, though both are in use. -/
structure Lost (m : Ledger) (h : Hole) (s : Session) : Prop where
  tracked : h ∈ s.registry
  known : s.ipv6 = true
  missing : ¬ (m.after s.exchanges).Held h.rule

section Later

variable {k : Toolkit} {m : Ledger} {s t u : Session} {es fs : List Exchange} {h x : Hole}
  {q : Except Stop Outcome}

theorem Session.since_eq (log : t.exchanges = s.exchanges ++ es) : s.since t = es := by
  rw [since, log, List.drop_left]

/-- What is truthful since some point was so before and is so from any later point on. -/
theorem TruthfulSince.split (truth : TruthfulSince m s u) (log : t.exchanges = s.exchanges ++ es)
    (log' : u.exchanges = t.exchanges ++ fs) : TruthfulSince m s t ∧ TruthfulSince m t u := by
  have hsu : s.since u = es ++ fs :=
    Session.since_eq (log'.trans (by rw [log, List.append_assoc]))
  obtain ⟨uncut, honest⟩ := truth
  rw [hsu, List.forall_mem_append] at uncut
  rw [hsu, Ledger.honest_append, ← Ledger.after_append, ← log] at honest
  rw [← Session.since_eq log, ← Session.since_eq log'] at uncut honest
  exact ⟨⟨uncut.1, honest.1⟩, ⟨uncut.2, honest.2⟩⟩

/-- Plugging a tracked hole succeeds exactly when both filters keep its rule, and moves nothing
else. -/
theorem Plugging.of_truthful (live : k.executor.dryRun = false)
    (course : Plugging k h.protocol (.int h.port) h.interface s t q)
    (truth : TruthfulSince m s t) (known : s.ipv6 = true) (valid : h.Valid)
    (old : h ∈ s.registry) :
    q = h.plugged (.ok (decide ((m.after s.exchanges).Held h.rule))) ∧ t.ipv6 = true ∧
      (∀ x, x ∈ t.registry ↔
        x ∈ s.registry ∧ (x = h → ¬ (m.after s.exchanges).Held h.rule)) ∧
      ∀ x, x ≠ h → ((m.after t.exchanges).Held x.rule ↔ (m.after s.exchanges).Held x.rule) := by
  obtain ⟨es, r, rfl, closing, asks, flag, tracked⟩ := course.of_mem valid old
  have log : t.exchanges = s.exchanges ++ es := asks.exchanges live
  obtain ⟨uncut, honest⟩ := truth
  rw [Session.since_eq log] at uncut honest
  rw [known] at closing
  obtain ⟨rfl, -⟩ := closing.eq_ok_held rfl uncut honest
  refine ⟨rfl, flag.trans known, fun x => ?_, fun x hx => ?_⟩
  · rw [tracked, Registry.mem_closed_iff]
    simp
  · rw [log]
    exact m.held_after_append_of_ne (Hole.rule_ne_of_about hx fun e he => closing.rule_eq he) _

/-- Plugging some tracked holes in turn leaves exactly those tracked of which some filter had lost
the rule before. -/
theorem PluggingEach.of_truthful {hs : List Hole} {q : Except Stop Unit}
    (live : k.executor.dryRun = false) (course : PluggingEach k hs s t q)
    (truth : TruthfulSince m s t) (known : s.ipv6 = true) (nodup : hs.Nodup)
    (ready : ∀ h ∈ hs, h ∈ s.registry ∧ h.Valid) :
    q = .ok () ∧ ∀ x, x ∈ t.registry ↔
      x ∈ s.registry ∧ (x ∈ hs → ¬ (m.after s.exchanges).Held x.rule) := by
  induction course with
  | nil => simp
  | @cons h hs s u t o q first rest ih =>
    obtain ⟨old, valid⟩ := ready h List.mem_cons_self
    obtain ⟨hnew, nodup⟩ := List.nodup_cons.1 nodup
    obtain ⟨es, log, -⟩ := first.log live
    obtain ⟨fs, log', -⟩ := rest.log live
    obtain ⟨truth, truth'⟩ := truth.split log log'
    obtain ⟨-, known', mem_u, held_u⟩ := first.of_truthful live truth known valid old
    have ne_of_mem {x : Hole} (hx : x ∈ hs) : x ≠ h := fun e => hnew (e ▸ hx)
    obtain ⟨hq, mem_t⟩ := ih truth' known' nodup fun x hx => by
      obtain ⟨old', valid'⟩ := ready x (List.mem_cons_of_mem h hx)
      exact ⟨(mem_u x).2 ⟨old', fun e => absurd e (ne_of_mem hx)⟩, valid'⟩
    refine ⟨hq, fun x => ?_⟩
    rw [mem_t, mem_u, and_assoc, List.mem_cons, or_imp]
    refine and_congr_right fun _ => and_congr ?_ (forall_congr' fun hx => ?_)
    · exact forall_congr' fun hx => by rw [hx]
    · rw [held_u x (ne_of_mem hx)]
  | stopped first =>
    obtain ⟨old, valid⟩ := ready _ List.mem_cons_self
    obtain ⟨hq, -⟩ := first.of_truthful live truth known valid old
    have hplugged := Hole.plugged_eq_error_iff.1 hq.symm
    cases hplugged

/-- With truthful filters no move gets a lost hole closed. It is not opened again either, because it
is tracked. -/
theorem Lost.move (lost : Lost m h s) (live : k.executor.dryRun = false)
    (truth : TruthfulSince m s t) (hmove : Move k s t) : Lost m h t := by
  obtain ⟨tracked, known, missing⟩ := lost
  cases hmove with
  | idle asks same =>
    refine ⟨same.registry ▸ tracked, same.ipv6.trans known, ?_⟩
    rwa [asks.exchanges live, List.append_nil]
  | steering other asks same =>
    refine ⟨same.registry ▸ tracked, same.ipv6.trans known, ?_⟩
    rwa [asks.exchanges live,
      m.held_after_append_of_ne fun e he => Hole.ne_rule (other e he) h]
  | @opening g es r valid new course asks opened =>
    have hne : h ≠ g := fun e => new (e ▸ tracked)
    refine ⟨?_, (course.flag_iff rfl).2 (Or.inl known), ?_⟩
    · rw [opened, Registry.mem_opened_iff]
      exact Or.inl tracked
    · rwa [asks.exchanges live,
        m.held_after_append_of_ne (Hole.rule_ne_of_about hne fun e he => course.rule_eq he)]
  | @closing g es r old course asks flag closed =>
    have log : t.exchanges = s.exchanges ++ es := asks.exchanges live
    obtain ⟨uncut, honest⟩ := truth
    rw [Session.since_eq log] at uncut honest
    rw [known] at course
    obtain ⟨rfl, fewer⟩ := course.eq_ok_held rfl uncut honest
    refine ⟨?_, flag.trans known, ?_⟩
    · rw [closed, Registry.mem_closed_iff]
      refine ⟨tracked, ?_⟩
      rintro rfl
      simp [missing]
    · rw [log]
      by_cases hgh : h = g
      · -- Deleting puts nothing back.
        subst hgh
        rw [Ledger.held_iff] at missing
        rw [Ledger.after_append, Ledger.held_iff, fewer, fewer]
        omega
      · rwa [m.held_after_append_of_ne (Hole.rule_ne_of_about hgh fun e he => course.rule_eq he)]

/-- With truthful filters a lost hole stays lost, whatever is done. -/
theorem Lost.moves (lost : Lost m h s) (live : k.executor.dryRun = false) (hmoves : Moves k s t)
    (truth : TruthfulSince m s t) : Lost m h t := by
  -- From the left, because being truthful is said of what comes after `s`.
  induction hmoves using Relation.ReflTransGen.head_induction_on with
  | refl => exact lost
  | head hmove rest ih =>
    obtain ⟨es, log⟩ := hmove.log live
    obtain ⟨fs, asks⟩ := Moves.asks rest
    obtain ⟨before, after⟩ := truth.split log (asks.exchanges live)
    exact ih (lost.move live before hmove) after

/-- A rule that some filter has lost since it was added was lost in half a plug. -/
theorem Standing.halfPlugged_of_not_held {rule : Rule} (stands : Standing true m es rule)
    (missing : ¬ (m.after es).Held rule) :
    ∃ before a b since, LastAdded rule es before a b since ∧
      (HalfPlugged .primary rule since ∨ HalfPlugged .secondary rule since) := by
  obtain ⟨before, a, b, since, added, primary, secondary⟩ := stands
  refine ⟨before, a, b, since, added, ?_⟩
  rcases primary with there | half
  · rcases secondary with there' | half | ⟨-, never, -⟩
    · exact absurd ⟨there, there'⟩ missing
    · exact Or.inr half
    · cases never
  · exact Or.inl half

end Later

/-- Let the secondary filter be in use from the start. Whatever a toolkit was asked for, and however
the commands ended, let both filters tell the truth about deleting from then on.

* Plugging a tracked hole succeeds and ends its tracking if both filters keep a copy of its rule.
  Otherwise it reports a failure of the tools, and the hole stays tracked.
* Plugging all holes leaves exactly those tracked of which some filter has lost the rule, and it
  succeeds exactly when there are none.
* A tracked hole of which some filter has lost the rule stays tracked whatever else is asked for.
* Unless the user interrupted, a filter loses the rule of a tracked hole in half a plug only: one of
  the filters deleted the rule while the other refused to. -/
theorem retry_succeeds_iff {k : Toolkit} (live : k.executor.dryRun = false) (calls : List Call)
    (m : Ledger) :
    let s := k.serve calls { ipv6 := true }
    let held (h : Hole) := (m.after s.exchanges).Held h.rule
    (∀ h ∈ s.registry,
      let c := (k.plug h.protocol (.int h.port) h.interface).on s
      TruthfulSince m s c.2 →
        (held h → c.1 = .ok .success ∧ h ∉ c.2.registry) ∧
        (¬ held h → h ∈ c.2.registry ∧
          c.1 = .ok (.external ("Deleting ACCEPT rules failed for " ++ h.describe)))) ∧
    (TruthfulSince m s (k.plugAll.on s).2 →
      ((k.plugAll.on s).1 = .ok () ↔ ∀ h ∈ s.registry, held h) ∧
      ∀ h, h ∈ (k.plugAll.on s).2.registry ↔ h ∈ s.registry ∧ ¬ held h) ∧
    (∀ later, TruthfulSince m s (k.serve later s) →
      ∀ h ∈ s.registry, ¬ held h → h ∈ (k.serve later s).registry) ∧
    ((∀ e ∈ s.exchanges, e.answer.reply ≠ .cut) → ∀ h ∈ s.registry, ¬ held h →
      ∃ before a b since, LastAdded h.rule s.exchanges before a b since ∧
        (HalfPlugged .primary h.rule since ∨ HalfPlugged .secondary h.rule since)) := by
  intro s held
  have served : Moves k { ipv6 := true } s := k.moves_serve calls _
  have right : FlagIsRight true ({ ipv6 := true } : Session) := by
    simp [FlagIsRight, Session.exchanges]
  have known : s.ipv6 = true := (right.moves live served).2 (Or.inl rfl)
  have valid : ∀ h ∈ s.registry, h.Valid :=
    served.valid fun h tracked => absurd tracked List.not_mem_nil
  refine ⟨?_, fun truth => ?_, fun later truth h old missing => ?_,
    fun uncut h old missing => ?_⟩
  · intro h old c truth
    obtain ⟨q, t, ht, course⟩ := k.on_plug h.protocol (.int h.port) h.interface s
    have hc : c = (q, t) := ht
    rw [hc] at truth ⊢
    obtain ⟨rfl, -, tracked, -⟩ := course.of_truthful live truth known (valid h old) old
    refine ⟨fun there => ⟨?_, ?_⟩, fun missing => ⟨(tracked h).2 ⟨old, fun _ => missing⟩, ?_⟩⟩
    · rw [decide_eq_true there]
      rfl
    · exact fun still => ((tracked h).1 still).2 rfl there
    · rw [decide_eq_false missing]
      rfl
  · obtain ⟨q, t, ht, course⟩ := k.on_plugAll s
    rw [ht] at truth ⊢
    obtain ⟨rfl, tracked⟩ := course.of_truthful live truth known s.registry.nodup
      fun h old => ⟨old, valid h old⟩
    have left (h : Hole) : h ∈ t.registry ↔ h ∈ s.registry ∧ ¬ held h :=
      (tracked h).trans (and_congr_right fun old => ⟨fun e => e old, fun e _ => e⟩)
    refine ⟨?_, left⟩
    rw [t.registry.pluggedAll_eq_ok_iff, List.eq_nil_iff_forall_not_mem]
    refine forall_congr' fun h => (not_congr (left h)).trans ?_
    rw [not_and, not_not]
  · have lost : Lost m h s := ⟨old, known, missing⟩
    exact (lost.moves live (k.moves_serve later s) truth).tracked
  · have fresh : AllStand true m { ipv6 := true } :=
      ⟨right, fun h tracked => absurd tracked List.not_mem_nil⟩
    exact ((fresh.moves live served uncut).rules h old).halfPlugged_of_not_held missing

/-- Both filters refused to delete the rule at first. Then both still keep it, and plugging again
succeeds. -/
theorem retry_succeeds_after_refusals :
    let k := Toolkit.scripted [.silent, .silent, .refusal, .refusal]
    let s := k.serve [.punch .tcp (.int 1) "", .plug .tcp (.int 1) ""] { ipv6 := true }
    let c := (k.plug .tcp (.int 1) "").on s
    c.1 = .ok .success ∧ ⟨.tcp, 1, ""⟩ ∉ c.2.registry := by
  have retry := retry_succeeds_iff
    (k := .scripted [.silent, .silent, .refusal, .refusal]) rfl
    [.punch .tcp (.int 1) "", .plug .tcp (.int 1) ""] .empty
  exact (retry.1 ⟨.tcp, 1, ""⟩ (by decide +kernel) ⟨by decide +kernel, by decide +kernel⟩).1
    (by decide +kernel)

/-- The primary filter deleted the rule while the secondary one refused to. From then on both tell
the truth: the primary filter refuses to delete the rule again, so plugging again fails though it
deletes the last copy, and plugging all holes fails when no copy is left. -/
theorem retry_may_fail :
    let k := Toolkit.scripted [.silent, .silent, .silent, .refusal, .refusal, .silent, .refusal,
      .refusal]
    let h : Hole := ⟨.tcp, 1, ""⟩
    let s := k.serve [.punch .tcp (.int 1) "", .plug .tcp (.int 1) ""] { ipv6 := true }
    let c := (k.plug .tcp (.int 1) "").on s
    let d := k.plugAll.on c.2
    (∀ e ∈ s.exchanges, e.answer.reply ≠ .cut) ∧ h ∈ s.registry ∧
      TruthfulSince .empty s d.2 ∧
      c.1 = .ok (.external "Deleting ACCEPT rules failed for TCP port 1 on any interface") ∧
      d.1 = .error (.failed (Toolkit.stillOpen [h])) ∧
      ∀ f, h.rule ∉ Ledger.empty.after d.2.exchanges (.filter f) := by
  refine ⟨by decide +kernel, by decide +kernel, ⟨by decide +kernel, by decide +kernel⟩,
    by decide +kernel, by decide +kernel, fun f => ?_⟩
  cases f <;> decide +kernel

end Pinhole
