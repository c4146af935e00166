import Pinhole.Proofs.Ledger
import Pinhole.Proofs.Service

/-!
# How many copies of a rule there are

As long as nobody interrupts and every deletion works, what is tracked and what the filters keep
agree: the primary filter keeps one copy of the rule of every tracked hole, the secondary filter one
copy at most, and neither keeps a rule of any other hole. `Counted` says this of one rule, and
`counted_of_served` says it of all rules in every session that calls lead to.

Deletions that are refused break the agreement. What is left of it then is in `standing_of_tracked`
and `plugAll_succeeds_iff`.
-/

namespace Pinhole

/-! ## One hole -/

/-- How many copies of a rule the filters keep, by whether its hole is tracked. `always` tells
whether the secondary filter was to be in use from the start, `known` whether it is known to
work. -/
structure Counted (always known : Bool) (tracked : Prop) [Decidable tracked] (m : Ledger)
    (rule : Rule) : Prop where
  primary : m.copies .primary rule = if tracked then 1 else 0
  secondary : m.copies .secondary rule ≤ if tracked then 1 else 0
  working : 0 < m.copies .secondary rule → known = true
  required : always = true → m.copies .secondary rule = if tracked then 1 else 0

section OneHole

variable {always w w' : Bool} {m n : Ledger} {rule : Rule} {es : List Exchange}
  {r : Except Stop Bool} {tracked tracked' : Prop} [Decidable tracked] [Decidable tracked']

/-- Only the numbers of copies count, and the secondary filter may become known to work. -/
theorem Counted.congr (h : Counted always w tracked m rule) (hw : w = true → w' = true)
    (same : tracked' ↔ tracked) (hcopies : ∀ f, n.copies f rule = m.copies f rule) :
    Counted always w' tracked' n rule := by
  obtain ⟨primary, secondary, working, required⟩ := h
  refine ⟨?_, ?_, fun there => hw (working ?_), fun halways => ?_⟩
  · rw [hcopies, primary, if_congr same rfl rfl]
  · rw [hcopies, if_congr same rfl rfl]
    exact secondary
  · rwa [hcopies] at there
  · rw [hcopies, required halways, if_congr same rfl rfl]

/-- The rule of a hole that is not tracked is in neither filter. -/
theorem Counted.absent (h : Counted always w tracked m rule) (untracked : ¬ tracked) (f : Filter) :
    m.copies f rule = 0 := by
  cases f with
  | primary => rw [h.primary, if_neg untracked]
  | secondary =>
    have hle := h.secondary
    rw [if_neg untracked] at hle
    exact Nat.le_zero.1 hle

/-- A rule that is in neither filter is that of a hole that is not tracked. -/
theorem Counted.of_absent (untracked : ¬ tracked) (absent : ∀ f, m.copies f rule = 0) :
    Counted always w tracked m rule := by
  constructor <;> simp [untracked, absent]

/-- Adding the rule of a hole that is not tracked puts it into the filters exactly when it
succeeds, as long as the primary filter gives it back when asked. -/
theorem Counted.accepting (h : Counted always w tracked m rule) (untracked : ¬ tracked)
    (flag : always = true → w = true) (course : Accepting rule w es w' r)
    (opens : rule.isAccept = true) (uncut : ∀ e ∈ es, e.answer.reply ≠ .cut)
    (deleted : ∀ e ∈ es, e.change.verb = .delete → e.change.rule.isAccept = true →
      e.answer.reply = .done) :
    Counted always w' (r = .ok true) (m.after es) rule := by
  have absent : ∀ f, m.copies f rule = 0 := h.absent untracked
  cases course with
  | cutFirst ha => exact absurd ha (uncut _ List.mem_cons_self)
  | cutSecond ha hb => exact absurd hb (uncut _ (List.mem_cons_of_mem _ List.mem_cons_self))
  | cutUndo ha hb hc => simp [hc] at uncut
  | refused ha =>
    refine .of_absent (by simp) fun f => ?_
    cases f <;> simp [ha, absent]
  | both ha hb => constructor <;> simp [ha, hb, absent]
  | tolerated ha hb =>
    -- A filter that was to be in use from the start is not tolerated to refuse.
    have hnot : always ≠ true := fun e => Bool.false_ne_true (flag e)
    constructor <;> simp [ha, hb, absent, hnot]
  | @undone a b c ha hb hc =>
    have hdone : c.reply = .done :=
      deleted ⟨.inFilter .primary .delete rule, c⟩ (by simp) rfl opens
    refine .of_absent (by simp) fun f => ?_
    cases f <;> simp [ha, hb, hdone, absent]

/-- Deleting the rule of a tracked hole takes it out of both filters if all that is asked is
done. -/
theorem Counted.unaccepting (h : Counted always w tracked m rule) (tracked : tracked)
    (course : Unaccepting rule w es r) (done : ∀ e ∈ es, e.answer.reply = .done) (f : Filter) :
    (m.after es).copies f rule = 0 := by
  have primary : m.copies .primary rule = 1 := by rw [h.primary, if_pos tracked]
  have secondary : m.copies .secondary rule ≤ 1 := by
    have hle := h.secondary
    rwa [if_pos tracked] at hle
  cases course with
  | cutFirst ha => simp [ha] at done
  | cutSecond ha hb => simp [hb] at done
  | @primary a ha =>
    have hdone : a.reply = .done := done _ List.mem_cons_self
    -- A filter that has never worked has no copy to delete.
    have hnone : ¬ 0 < m.copies .secondary rule := fun e => Bool.false_ne_true (h.working e)
    cases f with
    | primary => simp [hdone, primary]
    | secondary =>
      simp only [Ledger.after_cons, Ledger.after_nil, Ledger.copies_secondary_step_primary]
      omega
  | @both a b ha hb =>
    have hdone : a.reply = .done := done _ List.mem_cons_self
    have hdone' : b.reply = .done := done _ (List.mem_cons_of_mem _ List.mem_cons_self)
    have hnone : m.copies .secondary rule - 1 = 0 := Nat.sub_eq_zero_of_le secondary
    cases f with
    | primary => simp [hdone, primary]
    | secondary => simpa [hdone'] using hnone

end OneHole

/-! ## All holes -/

/-- What the tools have to be like in a session: every deletion of a rule that opens a hole works,
and no command was interrupted. -/
structure Yielding (s : Session) : Prop where
  uncut : ∀ e ∈ s.exchanges, e.answer.reply ≠ .cut
  deleted : ∀ e ∈ s.exchanges, e.change.verb = .delete → e.change.rule.isAccept = true →
    e.answer.reply = .done

/-- The filters keep as many copies as they should of the rules of all holes, and a secondary filter
that was to be in use from the start is known to work. -/
structure AllCounted (always : Bool) (m : Ledger) (s : Session) : Prop where
  flag : always = true → s.ipv6 = true
  holes : ∀ h : Hole, Counted always s.ipv6 (h ∈ s.registry) (m.after s.exchanges) h.rule

section AllHoles

variable {k : Toolkit} {always : Bool} {m : Ledger} {s t : Session} {es : List Exchange}
  {r : Except Stop Bool} {h : Hole}

/-- Tools that yield now did so before. -/
theorem Yielding.before (yields : Yielding t) (log : t.exchanges = s.exchanges ++ es) :
    Yielding s :=
  ⟨fun e he => yields.uncut e (log ▸ List.mem_append_left es he),
    fun e he => yields.deleted e (log ▸ List.mem_append_left es he)⟩

/-- Exchanges about the rules of other holes leave the copies of a rule alone. -/
theorem AllCounted.frame (counted : AllCounted always m s)
    (log : t.exchanges = s.exchanges ++ es) (flag : s.ipv6 = true → t.ipv6 = true)
    (other : ∀ e ∈ es, e.change.rule ≠ h.rule) (same : h ∈ t.registry ↔ h ∈ s.registry) :
    Counted always t.ipv6 (h ∈ t.registry) (m.after t.exchanges) h.rule := by
  refine (counted.holes h).congr flag same fun f => ?_
  rw [log, Ledger.copies_after_append_of_ne _ other]

/-- Opening a hole keeps the filters in agreement with what is tracked. -/
theorem AllCounted.opening (counted : AllCounted always m s)
    (log : t.exchanges = s.exchanges ++ es) (yields : Yielding t) (new : h ∉ s.registry)
    (course : Accepting h.rule s.ipv6 es t.ipv6 r)
    (tracked : t.registry = s.registry.opened h r) : AllCounted always m t := by
  have flag : s.ipv6 = true → t.ipv6 = true := fun hs => (course.flag_iff rfl).2 (Or.inl hs)
  refine ⟨fun halways => flag (counted.flag halways), fun x => ?_⟩
  by_cases hx : x = h
  · subst hx
    have self := (counted.holes x).accepting new counted.flag course rfl
      (fun e he => yields.uncut e (log ▸ List.mem_append_right _ he))
      (fun e he => yields.deleted e (log ▸ List.mem_append_right _ he))
    refine self.congr id ?_ fun f => ?_
    · rw [tracked, Registry.mem_opened_iff]
      simp [new]
    · rw [log, Ledger.after_append]
  · refine counted.frame log flag (Hole.rule_ne_of_about hx fun e he => course.rule_eq he) ?_
    rw [tracked, Registry.mem_opened_iff]
    simp [hx]

/-- Closing a hole succeeds and keeps the filters in agreement with what is tracked. -/
theorem AllCounted.closing (counted : AllCounted always m s)
    (log : t.exchanges = s.exchanges ++ es) (yields : Yielding t) (old : h ∈ s.registry)
    (course : Unaccepting h.rule s.ipv6 es r) (flag : t.ipv6 = s.ipv6)
    (tracked : t.registry = s.registry.closed h r) :
    r = .ok true ∧ AllCounted always m t := by
  have done : ∀ e ∈ es, e.answer.reply = .done := by
    intro e he
    have opens : e.change.rule.isAccept = true := by rw [course.rule_eq he]; rfl
    exact yields.deleted e (log ▸ List.mem_append_right _ he) (course.verb_eq he) opens
  have hok : r = .ok true := course.eq_ok_true_iff.2 done
  refine ⟨hok, fun halways => flag.trans (counted.flag halways), fun x => ?_⟩
  by_cases hx : x = h
  · subst hx
    refine .of_absent ?_ fun f => ?_
    · rw [tracked, Registry.mem_closed_iff]
      simp [hok]
    · rw [log, Ledger.after_append]
      exact (counted.holes x).unaccepting old course done f
  · refine counted.frame log (fun hs => flag.trans hs)
      (Hole.rule_ne_of_about hx fun e he => course.rule_eq he) ?_
    rw [tracked, Registry.mem_closed_iff]
    simp [hx]

/-- A move with yielding tools keeps the filters in agreement with what is tracked. -/
theorem AllCounted.move (counted : AllCounted always m s) (live : k.executor.dryRun = false)
    (yields : Yielding t) (hmove : Move k s t) : AllCounted always m t := by
  cases hmove with
  | opening valid new course asks tracked =>
    exact counted.opening (asks.exchanges live) yields new course tracked
  | closing old course asks flag tracked =>
    exact (counted.closing (asks.exchanges live) yields old course flag tracked).2
  | idle asks same =>
    refine ⟨fun halways => same.ipv6.trans (counted.flag halways), fun x => ?_⟩
    exact counted.frame (asks.exchanges live) (fun hs => same.ipv6.trans hs) (by simp)
      (by rw [same.registry])
  | steering other asks same =>
    refine ⟨fun halways => same.ipv6.trans (counted.flag halways), fun x => ?_⟩
    exact counted.frame (asks.exchanges live) (fun hs => same.ipv6.trans hs)
      (fun e he => Hole.ne_rule (other e he) x) (by rw [same.registry])

/-- A run with yielding tools keeps the filters in agreement with what is tracked. -/
theorem AllCounted.moves (counted : AllCounted always m s) (live : k.executor.dryRun = false)
    (hmoves : Moves k s t) (yields : Yielding t) : AllCounted always m t :=
  hmoves.invariant_while live (fun log yields => yields.before log)
    (fun counted hmove yields => counted.move live yields hmove) counted yields

/-- Plugging a hole ends with an outcome, and the hole is tracked no longer. -/
theorem AllCounted.plugging {q : Except Stop Outcome} (counted : AllCounted always m s)
    (live : k.executor.dryRun = false) (yields : Yielding t) (valid : h.Valid)
    (course : Plugging k h.protocol (.int h.port) h.interface s t q) :
    (∃ o, q = .ok o) ∧ ∀ x ∈ t.registry, x ∈ s.registry ∧ x ≠ h := by
  by_cases old : h ∈ s.registry
  · obtain ⟨es, r, rfl, closing, asks, flag, tracked⟩ := course.of_mem valid old
    obtain ⟨rfl, -⟩ := counted.closing (asks.exchanges live) yields old closing flag tracked
    refine ⟨⟨_, rfl⟩, fun x hx => ?_⟩
    rw [tracked, Registry.mem_closed_iff] at hx
    exact ⟨hx.1, fun e => hx.2 e rfl⟩
  · obtain ⟨hq, -, same⟩ := course.of_not_mem old
    refine ⟨hq, fun x hx => ?_⟩
    rw [same.registry] at hx
    exact ⟨hx, fun e => old (e ▸ hx)⟩

/-- Plugging some holes goes through all of them, and none of them is tracked afterwards. -/
theorem AllCounted.pluggingEach {hs : List Hole} {q : Except Stop Unit}
    (counted : AllCounted always m s) (live : k.executor.dryRun = false) (yields : Yielding t)
    (valid : ∀ h ∈ hs, h.Valid) (course : PluggingEach k hs s t q) :
    ∀ x ∈ t.registry, x ∈ s.registry ∧ x ∉ hs := by
  induction course with
  | nil => exact fun x hx => ⟨hx, List.not_mem_nil⟩
  | @cons h hs s u t o q first rest ih =>
    obtain ⟨fs, log, -, -⟩ := rest.log live
    have yields_u : Yielding u := yields.before log
    obtain ⟨-, left⟩ := counted.plugging live yields_u (valid h List.mem_cons_self) first
    have left' := ih (counted.move live yields_u first.move) yields
      fun x hx => valid x (List.mem_cons_of_mem h hx)
    intro x hx
    obtain ⟨hu, hrest⟩ := left' x hx
    obtain ⟨hs, hne⟩ := left x hu
    exact ⟨hs, by simp [hne, hrest]⟩
  | stopped first =>
    obtain ⟨⟨o, ho⟩, -⟩ := counted.plugging live yields (valid _ List.mem_cons_self) first
    cases ho

/-- Plugging all holes leaves none tracked. -/
theorem AllCounted.pluggingAll {q : Except Stop Unit} (counted : AllCounted always m s)
    (live : k.executor.dryRun = false) (yields : Yielding t) (valid : ∀ h ∈ s.registry, h.Valid)
    (course : PluggingEach k s.registry.holes s t q) (h : Hole) : h ∉ t.registry := by
  intro tracked
  obtain ⟨old, gone⟩ := counted.pluggingEach live yields valid course h tracked
  exact gone old

/-- In a session in which nothing happened no hole is tracked, and the filters keep no rule of any
if they kept none before. -/
theorem AllCounted.fresh (clean : ∀ f r, r.isAccept = true → r ∉ m (.filter f)) (always : Bool) :
    AllCounted always m { ipv6 := always } := by
  refine ⟨id, fun h => .of_absent List.not_mem_nil fun f => ?_⟩
  have habsent : ¬ 0 < m.copies f h.rule := (m.mem_iff_copies f h.rule).not.1 (clean f h.rule rfl)
  exact Nat.eq_zero_of_not_pos habsent

end AllHoles

/-- Let every deletion of a rule that opens a hole work, let nobody interrupt, and let the filters
keep no such rule in the beginning. Whatever a toolkit was asked for, and however adding rules
ended, the filters then keep as many copies of the rule of each hole as they should by what is
tracked; and when all holes were plugged last, they keep no such rule at all. -/
theorem counted_of_served {k : Toolkit} (live : k.executor.dryRun = false) (always : Bool)
    (calls : List Call) {m : Ledger} (clean : ∀ f r, r.isAccept = true → r ∉ m (.filter f))
    (yields : Yielding (k.serve calls { ipv6 := always })) :
    let s := k.serve calls { ipv6 := always }
    (∀ h : Hole, Counted always s.ipv6 (h ∈ s.registry) (m.after s.exchanges) h.rule) ∧
      (calls.getLast? = some .plugAll →
        ∀ f r, r.isAccept = true → r ∉ m.after s.exchanges (.filter f)) := by
  intro s
  have fresh : AllCounted always m { ipv6 := always } := .fresh clean always
  have counted : AllCounted always m s := fresh.moves live (k.moves_serve calls _) yields
  refine ⟨counted.holes, fun last f r opens there => ?_⟩
  obtain ⟨before, rfl⟩ := List.getLast?_eq_some_iff.1 last
  obtain ⟨h, rfl⟩ := Hole.exists_rule_eq opens
  have untracked : h ∉ s.registry := by
    obtain ⟨q, t, ht, course⟩ := k.on_plugAll (k.serve before { ipv6 := always })
    have hst : s = t := (k.serve_concat before .plugAll _).trans (congrArg Prod.snd ht)
    rw [← hst] at course
    obtain ⟨es, log, -⟩ := course.log live
    have served : Moves k { ipv6 := always } (k.serve before { ipv6 := always }) :=
      k.moves_serve before _
    have valid : ∀ h ∈ (k.serve before { ipv6 := always }).registry, h.Valid :=
      served.valid fun h tracked => absurd tracked List.not_mem_nil
    exact (fresh.moves live served (yields.before log)).pluggingAll live yields valid course h
  rw [Ledger.mem_iff_copies, (counted.holes h).absent untracked f] at there
  exact Nat.lt_irrefl 0 there

/-- Three holes are asked for: the secondary filter is tolerated to refuse the first rule, takes the
second, and may not refuse the third any more. -/
theorem no_rule_left_of_three_holes :
    let s := (Toolkit.scripted [.silent, .refusal, .silent, .silent, .silent, .refusal]).serve
      [.punch .tcp (.int 1) "", .punch .tcp (.int 2) "", .punch .udp (.int 3) "tun0", .plugAll] {}
    ∀ f r, r.isAccept = true → r ∉ Ledger.empty.after s.exchanges (.filter f) := by
  have clean : ∀ f r, r.isAccept = true → r ∉ Ledger.empty (.filter f) :=
    fun _ r _ => Multiset.notMem_zero r
  have counted := counted_of_served
    (k := .scripted [.silent, .refusal, .silent, .silent, .silent, .refusal]) rfl false
    [.punch .tcp (.int 1) "", .punch .tcp (.int 2) "", .punch .udp (.int 3) "tun0", .plugAll]
    clean ⟨by decide +kernel, by decide +kernel⟩
  exact counted.2 rfl

end Pinhole
