import Pinhole.Proofs.Ledger
import Pinhole.Proofs.Service

/-!
# The rules of tracked holes

A tracked hole should have its rule in both filters. Three things can stand in the way of it, and
`standing_of_tracked` says that there are no others:

* the secondary filter refused the rule when the hole was opened, and nothing required it to work;
* a plug deleted the rule in the primary filter while the secondary one refused to;
* a plug deleted it in the secondary filter while the primary one refused to.

After such a plug the hole stays tracked, so that plugging can be tried again.
-/

namespace Pinhole

/-! ## When the secondary filter is known to work -/

section Flag

variable {k : Toolkit} {s t : Session} {es : List Exchange} {always : Bool}

/-- The flag tells whether the secondary filter was to be in use from the start or took a rule
since. -/
def FlagIsRight (always : Bool) (s : Session) : Prop :=
  s.ipv6 = true ↔ always = true ∨ ∃ e ∈ s.exchanges, e.TookSecondary

/-- Exchanges of which none shows that the secondary filter works leave the flag right. -/
theorem FlagIsRight.extend (h : FlagIsRight always s) (flag : t.ipv6 = s.ipv6)
    (log : t.exchanges = s.exchanges ++ es) (none : ∀ e ∈ es, ¬ e.TookSecondary) :
    FlagIsRight always t := by
  have hsame : (∃ e ∈ t.exchanges, e.TookSecondary) ↔ ∃ e ∈ s.exchanges, e.TookSecondary := by
    rw [log]
    refine ⟨fun ⟨e, he, took⟩ => ?_, fun ⟨e, he, took⟩ => ⟨e, List.mem_append_left _ he, took⟩⟩
    rcases List.mem_append.1 he with he | he
    · exact ⟨e, he, took⟩
    · exact absurd took (none e he)
  rw [FlagIsRight, flag, hsame]
  exact h

/-- The flag is the same where it is right and nothing in between shows that the secondary filter
works. -/
theorem FlagIsRight.eq (h : FlagIsRight always s) (h' : FlagIsRight always t)
    (log : t.exchanges = s.exchanges ++ es) (none : ∀ e ∈ es, ¬ e.TookSecondary) :
    t.ipv6 = s.ipv6 := by
  have kept : FlagIsRight always { t with ipv6 := s.ipv6 } := h.extend rfl log none
  exact Bool.eq_iff_iff.2 (Iff.trans h' kept.symm)

/-- A move leaves the flag right. -/
theorem FlagIsRight.move (live : k.executor.dryRun = false) (h : FlagIsRight always s)
    (hmove : Move k s t) : FlagIsRight always t := by
  cases hmove with
  | idle asks same => exact h.extend same.ipv6 (asks.exchanges live) (by simp)
  | steering other asks same =>
    refine h.extend same.ipv6 (asks.exchanges live) fun e he took => ?_
    exact Bool.false_ne_true ((other e he).symm.trans took.2.2.1)
  | closing old course asks flag tracked =>
    refine h.extend flag (asks.exchanges live) fun e he took => ?_
    exact course.verb_ne_add he took.2.1
  | opening valid new course asks tracked =>
    rw [FlagIsRight, course.flag_iff rfl, asks.exchanges live]
    simp only [List.mem_append, or_and_right, exists_or, ← or_assoc]
    exact or_congr h Iff.rfl

/-- A run leaves the flag right. -/
theorem FlagIsRight.moves (live : k.executor.dryRun = false) (h : FlagIsRight always s)
    (hmoves : Moves k s t) : FlagIsRight always t :=
  hmoves.invariant (fun h hmove => h.move live hmove) h

end Flag

/-! ## What became of the rule of a tracked hole -/

/-- A plug deleted a rule in one filter while the other refused to. -/
def HalfPlugged (f : Filter) (rule : Rule) (es : List Exchange) : Prop :=
  ∃ a b : Answer,
    [⟨.inFilter .primary .delete rule, a⟩, ⟨.inFilter .secondary .delete rule, b⟩] <:+: es ∧
      match f with
      | .primary => a.reply = .done ∧ b.reply = .refused
      | .secondary => a.reply = .refused ∧ b.reply = .done

/-- Where in some exchanges a rule was added for the last time, with the answers of the two
filters. -/
structure LastAdded (rule : Rule) (es before : List Exchange) (a b : Answer)
    (since : List Exchange) : Prop where
  split : es = before ++
    (⟨.inFilter .primary .add rule, a⟩ :: ⟨.inFilter .secondary .add rule, b⟩ :: since)
  taken : a.reply = .done
  once : ∀ e ∈ since, e.change.rule = rule → e.change.verb = .delete

/-- What is true of the rule of a tracked hole: it was added, and it is in both filters but for the
three things that can stand in the way of it. -/
def Standing (always : Bool) (m : Ledger) (es : List Exchange) (rule : Rule) : Prop :=
  ∃ before a b since, LastAdded rule es before a b since ∧
    (rule ∈ m.after es (.filter .primary) ∨ HalfPlugged .primary rule since) ∧
    (rule ∈ m.after es (.filter .secondary) ∨ HalfPlugged .secondary rule since ∨
      b.reply = .refused ∧ always = false ∧ ∀ e ∈ before, ¬ e.TookSecondary)

section Standing

variable {k : Toolkit} {s t : Session} {always : Bool} {m : Ledger} {rule : Rule}
  {es fs : List Exchange} {f : Filter}

theorem HalfPlugged.append_right (h : HalfPlugged f rule es) (fs : List Exchange) :
    HalfPlugged f rule (es ++ fs) := by
  obtain ⟨a, b, hes, hf⟩ := h
  exact ⟨a, b, hes.trans (List.prefix_append es fs).isInfix, hf⟩

theorem HalfPlugged.append_left (h : HalfPlugged f rule fs) (es : List Exchange) :
    HalfPlugged f rule (es ++ fs) := by
  obtain ⟨a, b, hfs, hf⟩ := h
  exact ⟨a, b, hfs.trans (List.suffix_append es fs).isInfix, hf⟩

/-- More exchanges leave a rule as it stands if they do not add it, and if it goes missing in half
a plug only. -/
theorem Standing.extend (h : Standing always m es rule)
    (deleted : ∀ e ∈ fs, e.change.rule = rule → e.change.verb = .delete)
    (kept : ∀ f, rule ∈ m.after es (.filter f) →
      rule ∈ m.after (es ++ fs) (.filter f) ∨ HalfPlugged f rule fs) :
    Standing always m (es ++ fs) rule := by
  obtain ⟨before, a, b, since, added, primary, secondary⟩ := h
  refine ⟨before, a, b, since ++ fs, ⟨?_, added.taken, ?_⟩, ?_, ?_⟩
  · rw [added.split]
    simp
  · intro e he
    rcases List.mem_append.1 he with he | he
    · exact added.once e he
    · exact deleted e he
  · rcases primary with there | half
    · exact (kept .primary there).imp_right fun half => half.append_left since
    · exact Or.inr (half.append_right fs)
  · rcases secondary with there | half | tolerated
    · rcases kept .secondary there with there | half
      · exact Or.inl there
      · exact Or.inr (Or.inl (half.append_left since))
    · exact Or.inr (Or.inl (half.append_right fs))
    · exact Or.inr (Or.inr tolerated)

/-- Exchanges about other rules leave a rule as it stands. -/
theorem Standing.frame (h : Standing always m es rule) (other : ∀ e ∈ fs, e.change.rule ≠ rule) :
    Standing always m (es ++ fs) rule := by
  refine h.extend (fun e he eq => absurd eq (other e he)) fun f there => Or.inl ?_
  rw [Ledger.mem_iff_copies] at there ⊢
  rwa [Ledger.copies_after_append_of_ne _ other]

/-- A plug that failed leaves a rule as it stands. -/
theorem Standing.notPlugged {w : Bool} {r : Except Stop Bool} (h : Standing always m es rule)
    (course : Unaccepting rule w fs r) (uncut : ∀ e ∈ fs, e.answer.reply ≠ .cut)
    (failed : r ≠ .ok true) : Standing always m (es ++ fs) rule := by
  refine h.extend (fun e he _ => course.verb_eq he) fun f there => ?_
  rw [Ledger.mem_iff_copies] at there
  rw [Ledger.mem_iff_copies, Ledger.after_append]
  cases course with
  | cutFirst ha => exact absurd ha (uncut _ List.mem_cons_self)
  | cutSecond ha hb => exact absurd hb (uncut _ (List.mem_cons_of_mem _ List.mem_cons_self))
  | @primary a ha =>
    have hdone : a.reply ≠ .done := fun e => failed (by simp [e])
    refine Or.inl ?_
    cases f <;> simpa [hdone] using there
  | @both a b ha hb =>
    -- The primary filter may have given the rule up only if the secondary one kept it, and the
    -- other way round: with both done the plug would not have failed.
    by_cases hdone : a.reply = .done
    · have hb' : b.reply ≠ .done := fun e => failed (by simp [hdone, e])
      have hrefused : b.reply = .refused := by cases h : b.reply <;> simp_all
      cases f with
      | primary => exact Or.inr ⟨a, b, List.infix_rfl, hdone, hrefused⟩
      | secondary =>
        refine Or.inl ?_
        simpa [hb'] using there
    · have hrefused : a.reply = .refused := by cases h : a.reply <;> simp_all
      cases f with
      | primary =>
        refine Or.inl ?_
        simpa [hdone] using there
      | secondary =>
        by_cases hb' : b.reply = .done
        · exact Or.inr ⟨a, b, List.infix_rfl, hrefused, hb'⟩
        · refine Or.inl ?_
          simpa [hb'] using there

/-- A rule that was just added stands. -/
theorem Standing.added {w' : Bool} (course : Accepting rule s.ipv6 fs w' (.ok true))
    (right : FlagIsRight always s) : Standing always m (s.exchanges ++ fs) rule := by
  generalize hw : s.ipv6 = w at course
  cases course with
  | both ha hb =>
    refine ⟨s.exchanges, _, _, [], ⟨rfl, ha, by simp⟩, Or.inl ?_, Or.inl ?_⟩
    · rw [Ledger.mem_iff_copies, Ledger.after_append]
      simp [ha]
    · rw [Ledger.mem_iff_copies, Ledger.after_append]
      simp [hb]
  | tolerated ha hb =>
    -- The flag is down, and it is right: nothing has raised it so far.
    have hunknown : ¬ (always = true ∨ ∃ e ∈ s.exchanges, e.TookSecondary) := fun h => by
      rw [right.2 h] at hw
      cases hw
    have hnone : ∀ e ∈ s.exchanges, ¬ e.TookSecondary := fun e he took =>
      hunknown (Or.inr ⟨e, he, took⟩)
    have halways : always = false := Bool.eq_false_iff.2 fun h => hunknown (Or.inl h)
    refine ⟨s.exchanges, _, _, [], ⟨rfl, ha, by simp⟩, Or.inl ?_,
      Or.inr (Or.inr ⟨hb, halways, hnone⟩)⟩
    rw [Ledger.mem_iff_copies, Ledger.after_append]
    simp [ha]

/-- The flag is right, and the rule of every tracked hole stands. -/
structure AllStand (always : Bool) (m : Ledger) (s : Session) : Prop where
  flag : FlagIsRight always s
  rules : ∀ h ∈ s.registry, Standing always m s.exchanges h.rule

/-- What stands before an uninterrupted move stands after it. -/
theorem AllStand.move (live : k.executor.dryRun = false) (hs : AllStand always m s)
    (hmove : Move k s t) (uncut : ∀ e ∈ t.exchanges, e.answer.reply ≠ .cut) :
    AllStand always m t := by
  refine ⟨hs.flag.move live hmove, fun h tracked => ?_⟩
  cases hmove with
  | idle asks same =>
    rw [same.registry] at tracked
    rw [asks.exchanges live, List.append_nil]
    exact hs.rules h tracked
  | steering other asks same =>
    rw [same.registry] at tracked
    rw [asks.exchanges live]
    exact (hs.rules h tracked).frame fun e he => Hole.ne_rule (other e he) h
  | @opening g es r valid new course asks opened =>
    rw [asks.exchanges live]
    rw [opened, Registry.mem_opened_iff] at tracked
    rcases tracked with old | ⟨rfl, rfl⟩
    · have hne : h ≠ g := fun e => new (e ▸ old)
      exact (hs.rules h old).frame (Hole.rule_ne_of_about hne fun e he => course.rule_eq he)
    · exact .added course hs.flag
  | @closing g es r old course asks flag closed =>
    rw [asks.exchanges live] at uncut ⊢
    rw [closed, Registry.mem_closed_iff] at tracked
    by_cases hgh : h = g
    · subst hgh
      exact (hs.rules h old).notPlugged course
        (fun e he => uncut e (List.mem_append_right _ he)) (tracked.2 rfl)
    · -- Another hole was closed.
      exact (hs.rules h tracked.1).frame
        (Hole.rule_ne_of_about hgh fun e he => course.rule_eq he)

/-- What stands before an uninterrupted run stands after it. -/
theorem AllStand.moves (live : k.executor.dryRun = false) (hs : AllStand always m s)
    (hmoves : Moves k s t) (uncut : ∀ e ∈ t.exchanges, e.answer.reply ≠ .cut) :
    AllStand always m t :=
  hmoves.invariant_while live
    (fun log uncut e he => uncut e (log ▸ List.mem_append_left _ he))
    (fun hs hmove uncut => hs.move live hmove uncut) hs uncut

end Standing

/-- Whatever a toolkit was asked for, the rule of every tracked hole stands, unless the user
interrupted: it was added, and it is in both filters but for the three things that can stand in the
way of it. -/
theorem standing_of_tracked {k : Toolkit} (live : k.executor.dryRun = false) (always : Bool)
    (m : Ledger) (calls : List Call)
    (uncut : ∀ e ∈ (k.serve calls { ipv6 := always }).exchanges, e.answer.reply ≠ .cut) :
    ∀ h ∈ (k.serve calls { ipv6 := always }).registry,
      Standing always m (k.serve calls { ipv6 := always }).exchanges h.rule := by
  have fresh : AllStand always m { ipv6 := always } :=
    ⟨by simp [FlagIsRight, Session.exchanges], fun h tracked => absurd tracked List.not_mem_nil⟩
  exact (fresh.moves live (k.moves_serve calls _) uncut).rules

/-- A hole that was opened while the secondary filter was not known to work. -/
theorem standing_of_tolerated :
    ∃ h, h ∈ ((Toolkit.scripted [.silent, .refusal]).serve [.punch .tcp (.int 1) ""] {}).registry ∧
      Standing false .empty
        ((Toolkit.scripted [.silent, .refusal]).serve [.punch .tcp (.int 1) ""] {}).exchanges
        h.rule :=
  have tracked : (⟨.tcp, 1, ""⟩ : Hole) ∈
      ((Toolkit.scripted [.silent, .refusal]).serve [.punch .tcp (.int 1) ""] {}).registry := by
    decide +kernel
  ⟨⟨.tcp, 1, ""⟩, tracked,
    standing_of_tracked rfl false _ [.punch .tcp (.int 1) ""] (by decide +kernel) _ tracked⟩

/-- Each of the three things happens: of the three holes that are tracked in the end none has its
rule in both filters, though the secondary one is known to work. -/
theorem rules_of_tracked_may_be_missing :
    let s := (Toolkit.scripted [.silent, .refusal, .silent, .silent, .silent, .silent,
      .silent, .refusal, .refusal, .silent]).serve
        [.punch .tcp (.int 1) "", .punch .tcp (.int 2) "", .punch .tcp (.int 3) "",
          .plug .tcp (.int 2) "", .plug .tcp (.int 3) ""] {}
    let m := Ledger.empty.after s.exchanges
    (∀ e ∈ s.exchanges, e.answer.reply ≠ .cut) ∧ s.ipv6 = true ∧
      s.registry.holes = [⟨.tcp, 1, ""⟩, ⟨.tcp, 2, ""⟩, ⟨.tcp, 3, ""⟩] ∧
      Hole.rule ⟨.tcp, 1, ""⟩ ∉ m (.filter .secondary) ∧
      Hole.rule ⟨.tcp, 2, ""⟩ ∉ m (.filter .primary) ∧
      Hole.rule ⟨.tcp, 3, ""⟩ ∉ m (.filter .secondary) := by
  decide +kernel

end Pinhole
