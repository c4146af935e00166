import Pinhole.Proofs.Parallel
import Pinhole.Proofs.Tracked

/-!
# What the secondary filter is held to

A secondary filter that refuses a rule is tolerated until it has worked once. What a session knows
of that is one bit, and `tolerance_of_history` says that this bit is never wrong about the past: it
is set exactly when the settings demanded it or the filter took the rule of a hole since. So the
past alone decides what becomes of a punch that only the secondary filter refuses, and whether a
plug asks that filter to delete. Neither plugging nor steering adds to what is known.

The past of a dry run is what would have been asked for, see `Toolkit.asked`.
-/

namespace Pinhole

/-- The secondary filter has to work: the settings demand it, or it has taken the rule of a hole. -/
def Bound (always : Bool) (past : List Exchange) : Prop :=
  always = true ∨ ∃ e ∈ past, e.TookSecondary

/-- Whether a call is a punch. -/
def Call.isPunch : Call → Bool
  | .punch _ _ _ => true
  | _ => false

/-- The rule of a hole is deleted in the secondary filter exactly when that filter has to work and
the deletion in the primary filter was asked for and not interrupted. -/
def DeletesWhere (bound : Prop) (es : List Exchange) (h : Hole) : Prop :=
  (∃ e ∈ es, e.change = .inFilter .secondary .delete h.rule) ↔
    bound ∧ ∃ e ∈ es, e.change = .inFilter .primary .delete h.rule ∧ e.answer.reply ≠ .cut

/-- What becomes of a call, with what it asks, by whether the secondary filter has to work.

* A punch of a hole that is not open offers its rule to the primary filter and then to the secondary
  one. If the first takes it and the second refuses, the punch succeeds exactly when the second does
  not have to work.
* A plug of an open hole deletes its rule in the primary filter, and in the secondary one exactly
  when that has to work; but an interrupt in the primary filter ends it.
* The same is true of each open hole that is plugged with all others; an interrupt may come before
  its turn. -/
def Decided (k : Toolkit) (bound : Prop) (s : Session) (es : List Exchange) : Call → Prop
  | .punch protocol port interface =>
    ∀ h ∉ s.registry, h.Valid → h.GivenBy protocol port interface →
      ∃ a rest, es = ⟨.inFilter .primary .add h.rule, a⟩ :: rest ∧
        (a.reply = .done → ∃ b rest', rest = ⟨.inFilter .secondary .add h.rule, b⟩ :: rest' ∧
          (b.reply = .refused →
            ((∃ o, ((k.punch protocol port interface).on s).1 = .ok o ∧ o.isOk = true) ↔ ¬ bound)))
  | .plug protocol port interface =>
    ∀ h ∈ s.registry, h.GivenBy protocol port interface →
      (∃ e ∈ es, e.change = .inFilter .primary .delete h.rule) ∧ DeletesWhere bound es h
  | .plugAll =>
    ∀ h ∈ s.registry,
      ((∀ e ∈ es, e.answer.reply ≠ .cut) →
        ∃ e ∈ es, e.change = .inFilter .primary .delete h.rule) ∧ DeletesWhere bound es h
  | .steer _ _ _ => True

/-! ## What plugging deletes -/

section Plugs

variable {k : Toolkit} {s t : Session} {es fs : List Exchange} {bound : Prop} {h : Hole}

theorem DeletesWhere.of_other (other : ∀ e ∈ es, e.change.rule ≠ h.rule) :
    DeletesWhere bound es h := by
  constructor
  · rintro ⟨e, he, hc⟩
    exact absurd (congrArg Change.rule hc) (other e he)
  · rintro ⟨-, e, he, hc, -⟩
    exact absurd (congrArg Change.rule hc) (other e he)

theorem DeletesWhere.append (first : DeletesWhere bound es h) (rest : DeletesWhere bound fs h) :
    DeletesWhere bound (es ++ fs) h := by
  unfold DeletesWhere at *
  simp only [List.mem_append, or_and_right, exists_or]
  rw [first, rest, ← and_or_left]

/-- Deleting the rule of one hole is right about every hole. -/
theorem Unaccepting.deletesWhere {w : Bool} {r : Except Stop Bool} {g : Hole}
    (course : Unaccepting g.rule w es r) (h : Hole) : DeletesWhere (w = true) es h := by
  by_cases hgh : h = g
  · subst hgh
    exact course.asks_secondary_iff
  · exact .of_other (Hole.rule_ne_of_about hgh fun e he => course.rule_eq he)

/-- Plugging some holes deletes in the secondary filter if that has to work, and comes to every
tracked hole among them unless it is interrupted. -/
theorem PluggingEach.deletes {hs : List Hole} {r : Except Stop Unit}
    (live : k.executor.dryRun = false) (course : PluggingEach k hs s t r)
    (valid : ∀ h ∈ s.registry, h.Valid) :
    ∃ es, t.exchanges = s.exchanges ++ es ∧ (∀ e ∈ es, e.change.verb = .delete) ∧
      ∀ h, DeletesWhere (s.ipv6 = true) es h ∧
        (h ∈ hs → h ∈ s.registry → (∀ e ∈ es, e.answer.reply ≠ .cut) →
          ∃ e ∈ es, e.change = .inFilter .primary .delete h.rule) := by
  induction course with
  | @nil s =>
    exact ⟨[], by simp, by simp, fun h => ⟨.of_other (by simp), fun hin => by simp at hin⟩⟩
  | @cons g hs s t u o r first rest ih =>
    obtain ⟨fs, log', deletes', where'⟩ := ih (first.move.valid valid)
    by_cases old : g ∈ s.registry
    · obtain ⟨es, q, hr, course, asks, flag, tracked⟩ := first.of_mem (valid g old) old
      rw [flag] at where'
      refine ⟨es ++ fs, by rw [log', asks.exchanges live, List.append_assoc], ?_, fun h => ?_⟩
      · exact List.forall_mem_append.2 ⟨fun e he => course.verb_eq he, deletes'⟩
      refine ⟨(course.deletesWhere h).append (where' h).1, fun hin tracked_s uncut => ?_⟩
      by_cases hgh : h = g
      · obtain ⟨e, he, hc⟩ := course.asks_primary
        exact ⟨e, List.mem_append_left fs he, hgh ▸ hc⟩
      · -- Another hole was plugged first, so this one is still tracked.
        have tracked_t : h ∈ t.registry := by
          rw [tracked, Registry.mem_closed_iff]
          exact ⟨tracked_s, fun e => absurd e hgh⟩
        have hin' : h ∈ hs := (List.mem_cons.1 hin).resolve_left hgh
        obtain ⟨e, he, hc⟩ := (where' h).2 hin' tracked_t (List.forall_mem_append.1 uncut).2
        exact ⟨e, List.mem_append_right es he, hc⟩
    · obtain ⟨-, asks, same⟩ := first.of_not_mem old
      rw [same.ipv6] at where'
      refine ⟨fs, by rw [log', asks.exchanges live, List.append_nil], deletes', fun h => ?_⟩
      refine ⟨(where' h).1, fun hin tracked_s uncut => ?_⟩
      have hgh : h ≠ g := fun e => old (e ▸ tracked_s)
      exact (where' h).2 ((List.mem_cons.1 hin).resolve_left hgh) (same.registry ▸ tracked_s) uncut
  | @stopped g hs s t x first =>
    by_cases old : g ∈ s.registry
    · obtain ⟨es, q, hr, course, asks, -, -⟩ := first.of_mem (valid g old) old
      refine ⟨es, asks.exchanges live, fun e he => course.verb_eq he, fun h => ?_⟩
      refine ⟨course.deletesWhere h, fun _ _ uncut => ?_⟩
      rw [Hole.plugged_eq_error_iff.1 hr.symm] at course
      obtain ⟨e, he, hcut⟩ := course.exists_cut
      exact absurd hcut (uncut e he)
    · obtain ⟨⟨o, ho⟩, -, -⟩ := first.of_not_mem old
      cases ho

end Plugs

/-! ## What the past decides -/

section Calls

variable {k : Toolkit} {s t : Session} {es : List Exchange}
  {protocol : Protocol} {port : Value} {interface : String}

theorem Exchange.not_tookSecondary_of_delete {e : Exchange} (h : e.change.verb = .delete) :
    ¬ e.TookSecondary := by
  rintro ⟨-, hadd, -, -⟩
  rw [h] at hadd
  cases hadd

theorem Exchange.not_tookSecondary_of_other {e : Exchange} (h : e.change.rule.isAccept = false) :
    ¬ e.TookSecondary := by
  rintro ⟨-, -, hopens, -⟩
  rw [h] at hopens
  cases hopens

/-- What is known of the secondary filter decides about a punch. -/
theorem Punching.decided {r : Except Stop Outcome} (live : k.executor.dryRun = false)
    (ht : (k.punch protocol port interface).on s = (r, t))
    (course : Punching k protocol port interface s t r) :
    ∃ es, t.exchanges = s.exchanges ++ es ∧
      Decided k (s.ipv6 = true) s es (.punch protocol port interface) := by
  simp only [Decided, ht]
  cases course with
  | badPort hport asks same =>
    refine ⟨[], asks.exchanges live, fun h _ _ given => ?_⟩
    rw [given.port] at hport
    cases hport
  | badInterface hport hinterface asks same =>
    refine ⟨[], asks.exchanges live, fun h _ valid given => ?_⟩
    rw [← given.interface, valid.interface] at hinterface
    cases hinterface
  | @already g hport hprotocol hinterface valid old asks same =>
    refine ⟨[], asks.exchanges live, fun h new _ given => ?_⟩
    have hgh : g = h := Hole.GivenBy.unique ⟨hprotocol, hport, hinterface⟩ given
    exact absurd (hgh ▸ old) new
  | @tried g es r hport hprotocol hinterface valid new course asks tracked =>
    refine ⟨es, asks.exchanges live, fun h _ _ given => ?_⟩
    obtain rfl : g = h := Hole.GivenBy.unique ⟨hprotocol, hport, hinterface⟩ given
    rw [Hole.punched_isOk_iff, Bool.not_eq_true]
    exact course.tolerates

/-- What is known of the secondary filter decides about a plug. -/
theorem Plugging.decided {r : Except Stop Outcome} (live : k.executor.dryRun = false)
    (course : Plugging k protocol port interface s t r) :
    ∃ es, t.exchanges = s.exchanges ++ es ∧ (∀ e ∈ es, ¬ e.TookSecondary) ∧
      Decided k (s.ipv6 = true) s es (.plug protocol port interface) := by
  cases course with
  | badPort hport asks same =>
    refine ⟨[], asks.exchanges live, by simp, fun h _ given => ?_⟩
    rw [given.port] at hport
    cases hport
  | @unknown g hport hprotocol hinterface new asks same =>
    refine ⟨[], asks.exchanges live, by simp, fun h old given => ?_⟩
    have hgh : g = h := Hole.GivenBy.unique ⟨hprotocol, hport, hinterface⟩ given
    exact absurd (hgh ▸ old) new
  | @tried g es q hport hprotocol hinterface old course asks flag tracked =>
    refine ⟨es, asks.exchanges live, fun e he => ?_, fun h _ given => ?_⟩
    · exact Exchange.not_tookSecondary_of_delete (course.verb_eq he)
    · obtain rfl : g = h := Hole.GivenBy.unique ⟨hprotocol, hport, hinterface⟩ given
      exact ⟨course.asks_primary, course.deletesWhere g⟩

/-- Steering tells nothing about accept rules, whatever it comes to. -/
theorem Steering.not_tookSecondary {users : List String} {verb : Verb} {r : Except Stop Outcome}
    (live : k.executor.dryRun = false) (course : Steering k users interface s t verb r) :
    ∃ es, t.exchanges = s.exchanges ++ es ∧ ∀ e ∈ es, ¬ e.TookSecondary := by
  cases course with
  | badInterface hinterface asks same => exact ⟨[], asks.exchanges live, by simp⟩
  | badUser hinterface huser asks same => exact ⟨[], asks.exchanges live, by simp⟩
  | @setUp es r hinterface husers course asks same =>
    refine ⟨es, asks.exchanges live, fun e he => ?_⟩
    exact Exchange.not_tookSecondary_of_other (course.isAccept he)
  | @tearDown es r hinterface course asks same =>
    refine ⟨es, asks.exchanges live, fun e he => ?_⟩
    have hother := Toolkit.isAccept_of_mem_changes (course.change_mem he)
    exact Exchange.not_tookSecondary_of_other hother

/-- What is known of the secondary filter decides about every call, and only a punch can add to what
is known. -/
theorem exists_decided (live : k.executor.dryRun = false) (valid : ∀ h ∈ s.registry, h.Valid)
    (c : Call) :
    ∃ es, (k.perform s c).exchanges = s.exchanges ++ es ∧
      (c.isPunch = false → ∀ e ∈ es, ¬ e.TookSecondary) ∧ Decided k (s.ipv6 = true) s es c := by
  cases c with
  | punch protocol port interface =>
    obtain ⟨r, t, ht, course⟩ := k.on_punch protocol port interface s
    obtain ⟨es, log, decided⟩ := course.decided live ht
    rw [Toolkit.perform, ht]
    exact ⟨es, log, fun other => Bool.noConfusion other, decided⟩
  | plug protocol port interface =>
    obtain ⟨r, t, ht, course⟩ := k.on_plug protocol port interface s
    obtain ⟨es, log, none, decided⟩ := course.decided live
    rw [Toolkit.perform, ht]
    exact ⟨es, log, fun _ => none, decided⟩
  | plugAll =>
    obtain ⟨r, t, ht, course⟩ := k.on_plugAll s
    obtain ⟨es, log, deletes, each⟩ := course.deletes live valid
    rw [Toolkit.perform, ht]
    refine ⟨es, log, fun _ e he => Exchange.not_tookSecondary_of_delete (deletes e he), ?_⟩
    exact fun h tracked => ⟨(each h).2 tracked tracked, (each h).1⟩
  | steer verb users interface =>
    obtain ⟨r, t, ht, course⟩ := k.on_steer users interface verb s
    obtain ⟨es, log, none⟩ := course.not_tookSecondary live
    rw [Toolkit.perform, ht]
    exact ⟨es, log, fun _ => none, trivial⟩

/-- Paired toolkits decide alike. -/
theorem Decided.of_paired {R : Session → Session → Prop} {k' : Toolkit} {bound : Prop} {c : Call}
    (p : Paired R k k') (related : R s t) (h : Decided k' bound t es c) :
    Decided k bound s es c := by
  have tracked : t.registry = s.registry := (p.same related).registry
  cases c with
  | punch protocol port interface =>
    simp only [Decided, (p.punch protocol port interface related).1, tracked] at h ⊢
    exact h
  | plug protocol port interface =>
    simp only [Decided, tracked] at h ⊢
    exact h
  | plugAll =>
    simp only [Decided, tracked] at h ⊢
    exact h
  | steer verb users interface => trivial

end Calls

/-- Whatever a toolkit was asked for and whatever the tools answered, on a dry run or not: the
secondary filter is known to work exactly when it has to by the settings and the past, and this
decides what becomes of the next call. Only a punch whose rule that filter takes changes what is
known. -/
theorem tolerance_of_history (k : Toolkit) (always : Bool) (calls : List Call) :
    let s := k.serve calls { ipv6 := always }
    let past := k.asked calls { ipv6 := always }
    (s.ipv6 = true ↔ Bound always past) ∧
      ∀ c, ∃ es, k.asked (calls ++ [c]) { ipv6 := always } = past ++ es ∧
        ((k.perform s c).ipv6 ≠ s.ipv6 → c.isPunch = true ∧ ∃ e ∈ es, e.TookSecondary) ∧
        Decided k (Bound always past) s es c := by
  intro s past
  obtain ⟨R, paired, fresh⟩ := k.exists_paired_enacted
  have live := k.enacted_live
  -- The same calls where nothing is only shown.
  let s' := k.enacted.serve calls { ipv6 := always }
  have related : R s s' := paired.serve calls (fresh _)
  have served : Moves k.enacted { ipv6 := always } s' := k.enacted.moves_serve calls _
  have right : FlagIsRight always s' :=
    FlagIsRight.moves live (by simp [FlagIsRight, Session.exchanges]) served
  have valid : ∀ h ∈ s'.registry, h.Valid :=
    served.valid fun h tracked => absurd tracked List.not_mem_nil
  have flag : s'.ipv6 = s.ipv6 := (paired.same related).ipv6
  refine ⟨flag ▸ right, fun c => ?_⟩
  obtain ⟨es, log, quiet, decided⟩ := exists_decided live valid c
  have right' : FlagIsRight always (k.enacted.perform s' c) :=
    right.moves live (k.enacted.moves_perform s' c)
  have flag' : (k.enacted.perform s' c).ipv6 = (k.perform s c).ipv6 :=
    (paired.same (paired.perform c related)).ipv6
  have kept : (∀ e ∈ es, ¬ e.TookSecondary) → (k.perform s c).ipv6 = s.ipv6 := fun none => by
    rw [← flag', ← flag]
    exact right.eq right' log none
  refine ⟨es, ?_, fun changed => ⟨?_, ?_⟩, ?_⟩
  · rw [Toolkit.asked, Toolkit.serve_concat]
    exact log
  · exact eq_true_of_ne_false fun other => changed (kept (quiet other))
  · by_contra none
    exact changed (kept fun e he took => none ⟨e, he, took⟩)
  · have hbound : (s'.ipv6 = true) = Bound always past := propext right
    exact (hbound ▸ decided).of_paired paired related

/-- A plug that is interrupted in the primary filter asks nothing of the secondary one, though that
has to work. -/
theorem interrupted_plug_spares_secondary :
    let k := Toolkit.scripted [.silent, .silent, .interrupted]
    let s := k.serve [.punch .tcp (.int 1) ""] { ipv6 := true }
    let t := k.perform s (.plug .tcp (.int 1) "")
    ⟨.tcp, 1, ""⟩ ∈ s.registry ∧
      t.exchanges.map (·.change) =
        s.exchanges.map (·.change) ++ [.inFilter .primary .delete (.accept .tcp 1 "")] := by
  decide +kernel

end Pinhole
