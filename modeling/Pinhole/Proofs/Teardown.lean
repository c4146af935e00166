import Pinhole.Proofs.Ledger
import Pinhole.Proofs.Service

/-!
# Plugging all holes

When the filters tell the truth about deleting, a tracked hole is in one of three conditions
(`Account`): its rule is in both filters, or in the primary filter only because the secondary one
refused it, or in neither because a plug has been tried since. `Balanced.moves` follows all holes
through every run.

The plug of a hole that the secondary filter refused fails once that filter is known to work: then
both filters are asked to delete the rule, and the secondary one rightly refuses. The rule is gone
all the same, and the hole stays tracked for ever. `plugAll_succeeds_iff` says that this is the one
thing that keeps plugging all holes from success.
-/

namespace Pinhole

/-- The secondary filter refused a rule when it was asked for it the last time. -/
def Untaken (rule : Rule) (es : List Exchange) : Prop :=
  lastReply es (.inFilter .secondary .add rule) = some .refused

instance (rule : Rule) (es : List Exchange) : Decidable (Untaken rule es) :=
  inferInstanceAs (Decidable (_ = _))

/-! ## One hole -/

/-- The conditions of the rule of a tracked hole, by whether the secondary filter is known to
work. -/
inductive Account (m : Ledger) (w : Bool) (es : List Exchange) (rule : Rule) : Prop
  | full (known : w = true) (taken : ¬ Untaken rule es)
    (primary : (m.after es).copies .primary rule = 1)
    (secondary : (m.after es).copies .secondary rule = 1)
  | half (untaken : Untaken rule es) (primary : (m.after es).copies .primary rule = 1)
    (secondary : (m.after es).copies .secondary rule = 0)
  | gone (known : w = true) (untaken : Untaken rule es)
    (primary : (m.after es).copies .primary rule = 0)
    (secondary : (m.after es).copies .secondary rule = 0)

section OneHole

variable {m : Ledger} {w w' : Bool} {rule : Rule} {es fs : List Exchange} {r : Except Stop Bool}

/-- Exchanges that do not add a rule to the secondary filter say nothing new of it. -/
theorem untaken_append_iff (other : ∀ e ∈ fs, e.change ≠ .inFilter .secondary .add rule) :
    Untaken rule (es ++ fs) ↔ Untaken rule es := by
  rw [Untaken, lastReply_append, lastReply_eq_none other, Option.none_or]
  rfl

/-- Deleting a rule says nothing new of what the secondary filter takes. -/
theorem Unaccepting.untaken_iff {x : Rule} (h : Unaccepting rule w fs r) (es : List Exchange) :
    Untaken x (es ++ fs) ↔ Untaken x es :=
  untaken_append_iff fun _ he eq => h.verb_ne_add he (congrArg Change.verb eq)

/-- Exchanges about other rules leave the condition of a rule as it is. -/
theorem Account.frame (h : Account m w es rule) (hw : w = true → w' = true)
    (other : ∀ e ∈ fs, e.change.rule ≠ rule) : Account m w' (es ++ fs) rule := by
  have hcopies : ∀ f, (m.after (es ++ fs)).copies f rule = (m.after es).copies f rule :=
    fun f => m.copies_after_append_of_ne other es
  have huntaken : Untaken rule (es ++ fs) ↔ Untaken rule es :=
    untaken_append_iff fun e he eq => other e he (congrArg Change.rule eq)
  cases h with
  | full known taken primary secondary =>
    exact .full (hw known) (mt huntaken.1 taken) ((hcopies _).trans primary)
      ((hcopies _).trans secondary)
  | half untaken primary secondary =>
    exact .half (huntaken.2 untaken) ((hcopies _).trans primary) ((hcopies _).trans secondary)
  | gone known untaken primary secondary =>
    exact .gone (hw known) (huntaken.2 untaken) ((hcopies _).trans primary)
      ((hcopies _).trans secondary)

/-- Adding a rule that is in neither filter puts it into one of the conditions of a tracked hole,
or leaves it in neither filter. -/
theorem account_of_accepting (absent : ∀ f, (m.after es).copies f rule = 0)
    (course : Accepting rule w fs w' r) (opens : rule.isAccept = true)
    (uncut : ∀ e ∈ fs, e.answer.reply ≠ .cut) (honest : (m.after es).Honest fs) :
    r = .ok true ∧ Account m w' (es ++ fs) rule ∨
      r = .ok false ∧ ∀ f, (m.after (es ++ fs)).copies f rule = 0 := by
  cases course with
  | cutFirst ha => exact absurd ha (uncut _ List.mem_cons_self)
  | cutSecond ha hb => exact absurd hb (uncut _ (List.mem_cons_of_mem _ List.mem_cons_self))
  | cutUndo ha hb hc => simp [hc] at uncut
  | refused ha =>
    refine Or.inr ⟨rfl, fun f => ?_⟩
    rw [Ledger.after_append]
    cases f <;> simp [ha, absent]
  | both ha hb =>
    refine Or.inl ⟨rfl, .full rfl ?_ ?_ ?_⟩
    · rw [Untaken, lastReply_append]
      simp [lastReply, Change.inFilter, hb]
    · rw [Ledger.after_append]
      simp [ha, absent]
    · rw [Ledger.after_append]
      simp [hb, absent]
  | tolerated ha hb =>
    refine Or.inl ⟨rfl, .half ?_ ?_ ?_⟩
    · rw [Untaken, lastReply_append]
      simp [lastReply, Change.inFilter, hb]
    · rw [Ledger.after_append]
      simp [ha, absent]
    · rw [Ledger.after_append]
      simp [hb, absent]
  | undone ha hb hc =>
    refine Or.inr ⟨rfl, fun f => ?_⟩
    -- The primary filter has just taken the rule, so it does give it back.
    have hundone := honest
    simp only [Ledger.honest_add_cons, Ledger.honest_delete_cons _ opens] at hundone
    simp only [Ledger.copies_primary_step_secondary, Ledger.copies_step_add, ha, absent, if_true,
      Nat.zero_add, Nat.zero_lt_one, iff_true] at hundone
    rw [Ledger.after_append]
    cases f <;> simp [ha, hb, hundone.1, absent]

/-- Deleting the rule of a tracked hole leaves it in neither filter. This is reported as a success
unless the secondary filter is in use and refused the rule before. -/
theorem Account.unaccepting (h : Account m w es rule) (course : Unaccepting rule w fs r)
    (opens : rule.isAccept = true) (uncut : ∀ e ∈ fs, e.answer.reply ≠ .cut)
    (honest : (m.after es).Honest fs) :
    (∀ f, (m.after (es ++ fs)).copies f rule = 0) ∧
      r = .ok (decide ¬ (w = true ∧ Untaken rule es)) := by
  rw [Ledger.after_append]
  cases course with
  | cutFirst ha => exact absurd ha (uncut _ List.mem_cons_self)
  | cutSecond ha hb => exact absurd hb (uncut _ (List.mem_cons_of_mem _ List.mem_cons_self))
  | @primary a ha =>
    simp only [Ledger.honest_delete_cons _ opens] at honest
    -- The secondary filter is not in use, so it cannot have taken the rule.
    cases h with
    | full known taken primary secondary => cases known
    | gone known untaken primary secondary => cases known
    | half untaken primary secondary =>
      have hdone : a.reply = .done := honest.1.2 (by omega)
      refine ⟨fun f => ?_, by simp [hdone]⟩
      cases f <;> simp [hdone, primary, secondary]
  | @both a b ha hb =>
    simp only [Ledger.honest_delete_cons _ opens, Ledger.copies_secondary_step_primary] at honest
    obtain ⟨hprimary, hsecondary, -⟩ := honest
    -- Each filter gives the rule up exactly when it has a copy, which the condition tells.
    cases h with
    | full known taken primary secondary =>
      have hdone : a.reply = .done := hprimary.2 (by omega)
      have hdone' : b.reply = .done := hsecondary.2 (by omega)
      refine ⟨fun f => ?_, by simp [hdone, hdone', taken]⟩
      cases f <;> simp [hdone, hdone', primary, secondary]
    | half untaken primary secondary =>
      have hdone : a.reply = .done := hprimary.2 (by omega)
      have hkept : ¬ b.reply = .done := fun e => by have := hsecondary.1 e; omega
      refine ⟨fun f => ?_, by simp [hkept, untaken]⟩
      cases f <;> simp [hdone, hkept, primary, secondary]
    | gone known untaken primary secondary =>
      have hkept : ¬ a.reply = .done := fun e => by have := hprimary.1 e; omega
      have hkept' : ¬ b.reply = .done := fun e => by have := hsecondary.1 e; omega
      refine ⟨fun f => ?_, by simp [hkept, untaken]⟩
      cases f <;> simp [hkept, hkept', primary, secondary]

end OneHole

/-! ## All holes -/

/-- The rule of every tracked hole is in one of its conditions, and every other rule that would
open a hole is in neither filter. -/
structure Balanced (m : Ledger) (s : Session) : Prop where
  tracked : ∀ h ∈ s.registry, Account m s.ipv6 s.exchanges h.rule
  untracked : ∀ h ∉ s.registry, ∀ f, (m.after s.exchanges).copies f h.rule = 0

/-- What the filters have to be like in a session: their deletions tell the truth, and no command
was interrupted. -/
structure Truthful (m : Ledger) (s : Session) : Prop where
  uncut : ∀ e ∈ s.exchanges, e.answer.reply ≠ .cut
  honest : m.Honest s.exchanges

section AllHoles

variable {k : Toolkit} {m : Ledger} {s t : Session} {es : List Exchange} {r : Except Stop Bool}
  {h : Hole}

/-- What is truthful now was so before. -/
theorem Truthful.before (truth : Truthful m t) (log : t.exchanges = s.exchanges ++ es) :
    Truthful m s := by
  refine ⟨fun e he => truth.uncut e (log ▸ List.mem_append_left es he), ?_⟩
  have honest := truth.honest
  rw [log, Ledger.honest_append] at honest
  exact honest.1

/-- What was added to the record of a truthful session is truthful. -/
theorem Truthful.since (truth : Truthful m t) (log : t.exchanges = s.exchanges ++ es) :
    (∀ e ∈ es, e.answer.reply ≠ .cut) ∧ (m.after s.exchanges).Honest es := by
  refine ⟨fun e he => truth.uncut e (log ▸ List.mem_append_right s.exchanges he), ?_⟩
  have honest := truth.honest
  rw [log, Ledger.honest_append] at honest
  exact honest.2

/-- Exchanges about the rule of one hole keep all other holes balanced. -/
theorem Balanced.frame (balanced : Balanced m s) (log : t.exchanges = s.exchanges ++ es)
    (flag : s.ipv6 = true → t.ipv6 = true) {h x : Hole} (other : x ≠ h)
    (about : ∀ e ∈ es, e.change.rule = h.rule) (same : x ∈ t.registry ↔ x ∈ s.registry) :
    (x ∈ t.registry → Account m t.ipv6 t.exchanges x.rule) ∧
      (x ∉ t.registry → ∀ f, (m.after t.exchanges).copies f x.rule = 0) := by
  have hne : ∀ e ∈ es, e.change.rule ≠ x.rule := Hole.rule_ne_of_about other about
  rw [log, same]
  refine ⟨fun tracked => (balanced.tracked x tracked).frame flag hne, fun untracked f => ?_⟩
  rw [Ledger.copies_after_append_of_ne _ hne]
  exact balanced.untracked x untracked f

/-- Opening a hole keeps the balance. -/
theorem Balanced.opening (balanced : Balanced m s) (log : t.exchanges = s.exchanges ++ es)
    (truth : Truthful m t) (new : h ∉ s.registry)
    (course : Accepting h.rule s.ipv6 es t.ipv6 r)
    (tracked : t.registry = s.registry.opened h r) : Balanced m t := by
  obtain ⟨uncut, honest⟩ := truth.since log
  have flag : s.ipv6 = true → t.ipv6 = true := fun hs => (course.flag_iff rfl).2 (Or.inl hs)
  have self := account_of_accepting (balanced.untracked h new) course rfl uncut honest
  have key : ∀ x, (x ∈ t.registry → Account m t.ipv6 t.exchanges x.rule) ∧
      (x ∉ t.registry → ∀ f, (m.after t.exchanges).copies f x.rule = 0) := by
    intro x
    by_cases hx : x = h
    · subst hx
      rw [tracked, Registry.mem_opened_iff, log]
      rcases self with ⟨rfl, account⟩ | ⟨rfl, absent⟩
      · exact ⟨fun _ => account, fun untracked => absurd (Or.inr ⟨rfl, rfl⟩) untracked⟩
      · exact ⟨fun h => absurd h (by simp [new]), fun _ => absent⟩
    · refine balanced.frame log flag hx (fun e he => course.rule_eq he) ?_
      rw [tracked, Registry.mem_opened_iff]
      simp [hx]
  exact ⟨fun x => (key x).1, fun x => (key x).2⟩

/-- Closing a hole keeps the balance. -/
theorem Balanced.closing (balanced : Balanced m s) (log : t.exchanges = s.exchanges ++ es)
    (truth : Truthful m t) (old : h ∈ s.registry) (course : Unaccepting h.rule s.ipv6 es r)
    (flag : t.ipv6 = s.ipv6) (tracked : t.registry = s.registry.closed h r) : Balanced m t := by
  obtain ⟨uncut, honest⟩ := truth.since log
  obtain ⟨absent, result⟩ := (balanced.tracked h old).unaccepting course rfl uncut honest
  have key : ∀ x, (x ∈ t.registry → Account m t.ipv6 t.exchanges x.rule) ∧
      (x ∉ t.registry → ∀ f, (m.after t.exchanges).copies f x.rule = 0) := by
    intro x
    by_cases hx : x = h
    · subst hx
      rw [log, flag]
      refine ⟨fun htracked => ?_, fun _ => absent⟩
      rw [tracked, Registry.mem_closed_iff, result] at htracked
      -- A hole that is still tracked was not closed, and this has one reason only.
      have hstuck : s.ipv6 = true ∧ Untaken x.rule s.exchanges := by
        by_contra h
        exact htracked.2 rfl (by rw [decide_eq_true h])
      have untaken : Untaken x.rule (s.exchanges ++ es) := (course.untaken_iff _).2 hstuck.2
      exact .gone hstuck.1 untaken (absent .primary) (absent .secondary)
    · refine balanced.frame log (fun hs => flag.trans hs) hx (fun e he => course.rule_eq he) ?_
      rw [tracked, Registry.mem_closed_iff]
      simp [hx]
  exact ⟨fun x => (key x).1, fun x => (key x).2⟩

/-- A truthful move keeps the balance. -/
theorem Balanced.move (balanced : Balanced m s) (live : k.executor.dryRun = false)
    (truth : Truthful m t) (hmove : Move k s t) : Balanced m t := by
  cases hmove with
  | opening valid new course asks tracked =>
    exact balanced.opening (asks.exchanges live) truth new course tracked
  | closing old course asks flag tracked =>
    exact balanced.closing (asks.exchanges live) truth old course flag tracked
  | idle asks same =>
    have log : t.exchanges = s.exchanges := by rw [asks.exchanges live, List.append_nil]
    constructor
    · rw [log, same.registry, same.ipv6]
      exact balanced.tracked
    · rw [log, same.registry]
      exact balanced.untracked
  | steering other asks same =>
    constructor
    · intro h tracked
      rw [same.registry] at tracked
      rw [asks.exchanges live]
      exact (balanced.tracked h tracked).frame (fun hs => same.ipv6.trans hs)
        fun e he => Hole.ne_rule (other e he) h
    · intro h untracked f
      rw [same.registry] at untracked
      rw [asks.exchanges live,
        Ledger.copies_after_append_of_ne _ fun e he => Hole.ne_rule (other e he) h]
      exact balanced.untracked h untracked f

/-- A truthful run keeps the balance. -/
theorem Balanced.moves (balanced : Balanced m s) (live : k.executor.dryRun = false)
    (hmoves : Moves k s t) (truth : Truthful m t) : Balanced m t :=
  hmoves.invariant_while live (fun log truth => truth.before log)
    (fun balanced hmove truth => balanced.move live truth hmove) balanced truth

/-- Plugging a tracked hole deletes its rule wherever it is. It ends with an outcome, and the hole
stays tracked exactly when the secondary filter refused its rule though it is in use. -/
theorem Balanced.plugging {q : Except Stop Outcome} (balanced : Balanced m s)
    (live : k.executor.dryRun = false)
    (course : Plugging k h.protocol (.int h.port) h.interface s t q) (truth : Truthful m t)
    (valid : h.Valid) (old : h ∈ s.registry) :
    (∃ o, q = .ok o) ∧ Balanced m t ∧ t.ipv6 = s.ipv6 ∧
      (∀ x, x ∈ t.registry ↔
        x ∈ s.registry ∧ (x = h → s.ipv6 = true ∧ Untaken h.rule s.exchanges)) ∧
      (∀ r, Untaken r t.exchanges ↔ Untaken r s.exchanges) ∧
      ∀ f, (m.after t.exchanges).copies f h.rule = 0 := by
  obtain ⟨es, r, rfl, closing, asks, flag, tracked⟩ := course.of_mem valid old
  have log : t.exchanges = s.exchanges ++ es := asks.exchanges live
  obtain ⟨uncut, honest⟩ := truth.since log
  obtain ⟨absent, result⟩ := (balanced.tracked h old).unaccepting closing rfl uncut honest
  refine ⟨?_, balanced.closing log truth old closing flag tracked, flag, fun x => ?_, ?_, ?_⟩
  · rw [result]
    cases decide ¬ (s.ipv6 = true ∧ Untaken h.rule s.exchanges) <;> exact ⟨_, rfl⟩
  · rw [tracked, Registry.mem_closed_iff, result]
    simp
  · rw [log]
    exact fun r => closing.untaken_iff _
  · rw [log]
    exact absent

/-- Plugging some tracked holes in turn leaves exactly those tracked whose rule the secondary filter
refused though it is in use. The rules of all of them are gone. -/
theorem Balanced.pluggingEach {hs : List Hole} {q : Except Stop Unit} (balanced : Balanced m s)
    (live : k.executor.dryRun = false) (course : PluggingEach k hs s t q) (truth : Truthful m t)
    (valid : ∀ h ∈ hs, h.Valid) (old : ∀ h ∈ hs, h ∈ s.registry) (nodup : hs.Nodup) :
    q = .ok () ∧
      (∀ x, x ∈ t.registry ↔
        x ∈ s.registry ∧ (x ∈ hs → s.ipv6 = true ∧ Untaken x.rule s.exchanges)) ∧
      ∀ x ∈ hs, ∀ f, (m.after t.exchanges).copies f x.rule = 0 := by
  induction course with
  | nil => simp
  | @cons h hs s u t o q first rest ih =>
    obtain ⟨hnew, nodup⟩ := List.nodup_cons.1 nodup
    obtain ⟨fs, log, -, about⟩ := rest.log live
    obtain ⟨-, balanced_u, flag, mem_u, untaken_u, absent⟩ := balanced.plugging live first
      (truth.before log) (valid h List.mem_cons_self) (old h List.mem_cons_self)
    have old_u : ∀ x ∈ hs, x ∈ u.registry := fun x hx =>
      (mem_u x).2 ⟨old x (List.mem_cons_of_mem h hx), fun e => absurd (e ▸ hx) hnew⟩
    obtain ⟨hq, mem_t, absent_t⟩ := ih balanced_u truth
      (fun x hx => valid x (List.mem_cons_of_mem h hx)) old_u nodup
    refine ⟨hq, fun x => ?_, fun x hx f => ?_⟩
    · rw [mem_t, mem_u, untaken_u, flag, List.mem_cons, and_assoc, or_imp]
      by_cases hx : x = h
      · rw [hx]
      · simp [hx]
    · rcases List.mem_cons.1 hx with rfl | hx
      · -- The rule was deleted at the turn of its hole, and the other turns are about other rules.
        have hne : ∀ e ∈ fs, e.change.rule ≠ x.rule := fun e he eq => by
          obtain ⟨g, hg, f, hc⟩ := about e he
          have hrule : g.rule = x.rule := by rw [← eq, hc]; rfl
          exact hnew (Hole.rule_injective hrule ▸ hg)
        rw [log, Ledger.copies_after_append_of_ne _ hne]
        exact absent f
      · exact absent_t x hx f
  | stopped first =>
    obtain ⟨⟨o, ho⟩, -⟩ := balanced.plugging live first truth (valid _ List.mem_cons_self)
      (old _ List.mem_cons_self)
    cases ho

/-- Plugging all holes that a balanced session tracks leaves exactly those tracked whose rule the
secondary filter refused though it is in use. No rule that opens a hole is left. -/
theorem Balanced.pluggingAll {q : Except Stop Unit} (balanced : Balanced m s)
    (live : k.executor.dryRun = false) (course : PluggingEach k s.registry.holes s t q)
    (truth : Truthful m t) (valid : ∀ h ∈ s.registry, h.Valid) :
    q = .ok () ∧
      (∀ h, h ∈ t.registry ↔ h ∈ s.registry ∧ s.ipv6 = true ∧ Untaken h.rule s.exchanges) ∧
      ∀ (h : Hole) f, (m.after t.exchanges).copies f h.rule = 0 := by
  obtain ⟨hq, tracked, absent⟩ := balanced.pluggingEach live course truth valid (fun _ hs => hs)
    s.registry.nodup
  refine ⟨hq, fun h => ?_, fun h f => ?_⟩
  · rw [tracked h]
    exact and_congr_right fun hs => ⟨fun stuck => stuck hs, fun stuck _ => stuck⟩
  · by_cases hs : h ∈ s.registry
    · exact absent h hs f
    · have untracked : h ∉ t.registry := fun ht => hs ((tracked h).1 ht).1
      exact (balanced.moves live course.moves truth).untracked h untracked f

/-- A session in which nothing happened is balanced if the filters keep no rule that opens a
hole. -/
theorem Balanced.fresh (clean : ∀ f r, r.isAccept = true → r ∉ m (.filter f)) (always : Bool) :
    Balanced m { ipv6 := always } := by
  refine ⟨fun h tracked => absurd tracked List.not_mem_nil, fun h _ f => ?_⟩
  have habsent : ¬ 0 < m.copies f h.rule := (m.mem_iff_copies f h.rule).not.1 (clean f h.rule rfl)
  exact Nat.eq_zero_of_not_pos habsent

end AllHoles

/-- Let the filters tell the truth about deleting, and let them keep no rule that opens a hole in
the beginning. Whatever a toolkit was asked for before, plugging all holes then leaves no such rule
behind, and it keeps exactly those holes tracked whose rule the secondary filter refused though it
is in use. So it succeeds exactly when there is no such hole. -/
theorem plugAll_succeeds_iff {k : Toolkit} (live : k.executor.dryRun = false) (always : Bool)
    (calls : List Call) {m : Ledger}
    (clean : ∀ f r, r.isAccept = true → r ∉ m (.filter f))
    (uncut : ∀ e ∈ (k.plugAll.on (k.serve calls { ipv6 := always })).2.exchanges,
      e.answer.reply ≠ .cut)
    (honest : m.Honest (k.plugAll.on (k.serve calls { ipv6 := always })).2.exchanges) :
    let s := k.serve calls { ipv6 := always }
    let t := (k.plugAll.on s).2
    ((k.plugAll.on s).1 = .ok () ∧ t.registry.holes = [] ↔
        ¬ (s.ipv6 = true ∧ ∃ h ∈ s.registry, Untaken h.rule s.exchanges)) ∧
      (∀ h, h ∈ t.registry ↔
        h ∈ s.registry ∧ s.ipv6 = true ∧ Untaken h.rule s.exchanges) ∧
      ∀ f r, r.isAccept = true → r ∉ m.after t.exchanges (.filter f) := by
  intro s t
  obtain ⟨q, u, hu, course⟩ := k.on_plugAll s
  have ht : t = u := congrArg Prod.snd hu
  rw [← ht] at course hu
  have truth : Truthful m t := ⟨uncut, honest⟩
  obtain ⟨es, log, -, -⟩ := course.log live
  have served : Moves k { ipv6 := always } s := k.moves_serve calls _
  have balanced : Balanced m s := (Balanced.fresh clean always).moves live served (truth.before log)
  have valid : ∀ h ∈ s.registry, h.Valid :=
    served.valid fun h tracked => absurd tracked List.not_mem_nil
  obtain ⟨rfl, tracked, absent⟩ := balanced.pluggingAll live course truth valid
  have hempty : t.registry.holes = [] ↔
      ¬ (s.ipv6 = true ∧ ∃ h ∈ s.registry, Untaken h.rule s.exchanges) := by
    have hnone : t.registry.holes = [] ↔ ∀ h : Hole, h ∉ t.registry :=
      List.eq_nil_iff_forall_not_mem
    rw [hnone]
    constructor
    · rintro untracked ⟨known, h, hs, untaken⟩
      exact untracked h ((tracked h).2 ⟨hs, known, untaken⟩)
    · intro taken h ht
      obtain ⟨hs, known, untaken⟩ := (tracked h).1 ht
      exact taken ⟨known, h, hs, untaken⟩
  refine ⟨?_, tracked, fun f r opens hr => ?_⟩
  · rw [← hempty, hu, Registry.pluggedAll]
    refine ⟨And.right, fun hnil => ⟨?_, hnil⟩⟩
    rw [hnil]
    rfl
  · obtain ⟨h, rfl⟩ := Hole.exists_rule_eq opens
    rw [Ledger.mem_iff_copies, absent h f] at hr
    exact Nat.lt_irrefl 0 hr

/-- A hole that the secondary filter refused is closed as long as that filter has never worked. -/
theorem plugAll_succeeds_after_toleration :
    let k := Toolkit.scripted [.silent, .refusal]
    let s := k.serve [.punch .tcp (.int 1) ""] {}
    (k.plugAll.on s).1 = .ok () ∧ (k.plugAll.on s).2.registry.holes = [] := by
  have clean : ∀ f r, r.isAccept = true → r ∉ Ledger.empty (.filter f) :=
    fun _ r _ => Multiset.notMem_zero r
  have hiff := plugAll_succeeds_iff (k := .scripted [.silent, .refusal]) rfl false
    [.punch .tcp (.int 1) ""] clean (by decide +kernel) (by decide +kernel)
  exact hiff.1.2 (by decide +kernel)

/-- A hole that was opened before the secondary filter was known to work cannot be closed after: its
rule is in neither filter any more, and plugging all holes fails. -/
theorem plugAll_may_fail :
    let k := Toolkit.scripted [.silent, .refusal, .silent, .silent, .silent, .refusal]
    let s := k.serve [.punch .tcp (.int 1) "", .punch .tcp (.int 2) ""] {}
    let t := (k.plugAll.on s).2
    (∀ e ∈ t.exchanges, e.answer.reply ≠ .cut) ∧ Ledger.empty.Honest t.exchanges ∧
      (k.plugAll.on s).1 = .error (.failed (Toolkit.stillOpen [⟨.tcp, 1, ""⟩])) ∧
      t.registry.holes = [⟨.tcp, 1, ""⟩] ∧
      ∀ f, Hole.rule ⟨.tcp, 1, ""⟩ ∉ Ledger.empty.after t.exchanges (.filter f) := by
  refine ⟨by decide +kernel, by decide +kernel, by decide +kernel, by decide +kernel, fun f => ?_⟩
  cases f <;> decide +kernel

end Pinhole
