import Pinhole.Proofs.Exchange

/-!
# What becomes of an accept rule

Adding an accept rule is a question to the primary filter, one to the secondary filter, and in the
worst case a third one that takes the rule out of the primary filter again. `Accepting` lists every
course that this can take, with what is known of the secondary filter before and after it, and
`Unaccepting` does the same for deleting.

`on_accept` and `on_unaccept` say that there are no other courses. What is proved of accept rules
elsewhere goes by cases on these two.
-/

namespace Pinhole

/-- The courses of adding an accept rule. The flags tell whether the secondary filter is known to
work, before and after. -/
inductive Accepting (rule : Rule) : Bool → List Exchange → Bool → Except Stop Bool → Prop
  /-- The primary filter refuses the rule. -/
  | refused {w : Bool} {a : Answer} (ha : a.reply = .refused) :
    Accepting rule w [⟨.inFilter .primary .add rule, a⟩] w (.ok false)
  | cutFirst {w : Bool} {a : Answer} (ha : a.reply = .cut) :
    Accepting rule w [⟨.inFilter .primary .add rule, a⟩] w (.error .interrupted)
  | both {w : Bool} {a b : Answer} (ha : a.reply = .done) (hb : b.reply = .done) :
    Accepting rule w
      [⟨.inFilter .primary .add rule, a⟩, ⟨.inFilter .secondary .add rule, b⟩] true (.ok true)
  /-- The secondary filter refuses the rule and has never worked. -/
  | tolerated {a b : Answer} (ha : a.reply = .done) (hb : b.reply = .refused) :
    Accepting rule false
      [⟨.inFilter .primary .add rule, a⟩, ⟨.inFilter .secondary .add rule, b⟩] false (.ok true)
  | cutSecond {w : Bool} {a b : Answer} (ha : a.reply = .done) (hb : b.reply = .cut) :
    Accepting rule w
      [⟨.inFilter .primary .add rule, a⟩, ⟨.inFilter .secondary .add rule, b⟩] w
      (.error .interrupted)
  /-- The secondary filter refuses the rule though it has to take it. Whether the primary filter
  gives the rule back makes no difference to the result. -/
  | undone {a b c : Answer} (ha : a.reply = .done) (hb : b.reply = .refused)
    (hc : c.reply ≠ .cut) :
    Accepting rule true
      [⟨.inFilter .primary .add rule, a⟩, ⟨.inFilter .secondary .add rule, b⟩,
        ⟨.inFilter .primary .delete rule, c⟩] true (.ok false)
  | cutUndo {a b c : Answer} (ha : a.reply = .done) (hb : b.reply = .refused)
    (hc : c.reply = .cut) :
    Accepting rule true
      [⟨.inFilter .primary .add rule, a⟩, ⟨.inFilter .secondary .add rule, b⟩,
        ⟨.inFilter .primary .delete rule, c⟩] true (.error .interrupted)

/-- The courses of deleting an accept rule, by whether the secondary filter is known to work. -/
inductive Unaccepting (rule : Rule) : Bool → List Exchange → Except Stop Bool → Prop
  | cutFirst {w : Bool} {a : Answer} (ha : a.reply = .cut) :
    Unaccepting rule w [⟨.inFilter .primary .delete rule, a⟩] (.error .interrupted)
  | primary {a : Answer} (ha : a.reply ≠ .cut) :
    Unaccepting rule false [⟨.inFilter .primary .delete rule, a⟩] (.ok (a.reply = .done))
  | cutSecond {a b : Answer} (ha : a.reply ≠ .cut) (hb : b.reply = .cut) :
    Unaccepting rule true
      [⟨.inFilter .primary .delete rule, a⟩, ⟨.inFilter .secondary .delete rule, b⟩]
      (.error .interrupted)
  | both {a b : Answer} (ha : a.reply ≠ .cut) (hb : b.reply ≠ .cut) :
    Unaccepting rule true
      [⟨.inFilter .primary .delete rule, a⟩, ⟨.inFilter .secondary .delete rule, b⟩]
      (.ok (a.reply = .done ∧ b.reply = .done))

/-- The secondary filter took a rule that opens a hole. -/
def Exchange.TookSecondary (e : Exchange) : Prop :=
  e.change.tool = .filter .secondary ∧ e.change.verb = .add ∧ e.change.rule.isAccept = true ∧
    e.answer.reply = .done

section Courses

variable {rule : Rule} {w w' : Bool} {es : List Exchange} {r : Except Stop Bool} {e : Exchange}

/-- Adding a rule asks the two filters, and asks about that rule only. -/
theorem Accepting.change_eq (h : Accepting rule w es w' r) (he : e ∈ es) :
    ∃ f verb, e.change = .inFilter f verb rule := by
  cases h
  all_goals
    simp only [List.mem_cons, List.not_mem_nil, or_false] at he
    rcases he with rfl | rfl | rfl <;> exact ⟨_, _, rfl⟩

theorem Accepting.rule_eq (h : Accepting rule w es w' r) (he : e ∈ es) : e.change.rule = rule := by
  obtain ⟨f, verb, hc⟩ := h.change_eq he
  rw [hc]
  rfl

/-- Deleting a rule asks the two filters to delete that rule, and nothing else. -/
theorem Unaccepting.change_eq (h : Unaccepting rule w es r) (he : e ∈ es) :
    ∃ f, e.change = .inFilter f .delete rule := by
  cases h
  all_goals
    simp only [List.mem_cons, List.not_mem_nil, or_false] at he
    rcases he with rfl | rfl <;> exact ⟨_, rfl⟩

/-- Only an interrupt stops the adding of a rule. -/
theorem Accepting.error_eq {x : Stop} (h : Accepting rule w es w' (.error x)) :
    x = .interrupted := by
  cases h <;> rfl

/-- Only an interrupt stops the deleting of a rule. -/
theorem Unaccepting.error_eq {x : Stop} (h : Unaccepting rule w es (.error x)) :
    x = .interrupted := by
  cases h <;> rfl

theorem Unaccepting.rule_eq (h : Unaccepting rule w es r) (he : e ∈ es) : e.change.rule = rule := by
  obtain ⟨f, hc⟩ := h.change_eq he
  rw [hc]
  rfl

theorem Unaccepting.verb_eq (h : Unaccepting rule w es r) (he : e ∈ es) :
    e.change.verb = .delete := by
  obtain ⟨f, hc⟩ := h.change_eq he
  rw [hc]
  rfl

theorem Unaccepting.verb_ne_add (h : Unaccepting rule w es r) (he : e ∈ es) :
    e.change.verb ≠ .add := by
  rw [h.verb_eq he]
  decide

/-- Deleting a rule succeeds exactly when all that was asked is done. -/
theorem Unaccepting.eq_ok_true_iff (h : Unaccepting rule w es r) :
    r = .ok true ↔ ∀ e ∈ es, e.answer.reply = .done := by
  cases h with
  | cutFirst ha => simp [ha]
  | primary ha => simp
  | cutSecond ha hb => simp [hb]
  | both ha hb => simp

/-- Deleting a rule is stopped exactly when the user interrupts. -/
theorem Unaccepting.stopped_iff (h : Unaccepting rule w es r) :
    (∃ x, r = .error x) ↔ ∃ e ∈ es, e.answer.reply = .cut := by
  cases h with
  | cutFirst ha => simp [ha]
  | primary ha => simp [ha]
  | cutSecond ha hb => simp [hb]
  | both ha hb => simp [ha, hb]

/-- A deletion that was stopped has an interrupted exchange. -/
theorem Unaccepting.exists_cut {x : Stop} (h : Unaccepting rule w es (.error x)) :
    ∃ e ∈ es, e.answer.reply = .cut := h.stopped_iff.1 ⟨x, rfl⟩

/-- The primary filter is asked once to delete the rule. -/
theorem Unaccepting.countP_primary (h : Unaccepting rule w es r) :
    es.countP (fun e => e.change = .inFilter .primary .delete rule) = 1 := by
  cases h <;> simp

/-- Adding a rule makes the secondary filter known to work exactly when that filter takes it. -/
theorem Accepting.flag_iff (h : Accepting rule w es w' r) (opens : rule.isAccept = true) :
    w' = true ↔ w = true ∨ ∃ e ∈ es, e.TookSecondary := by
  cases h <;> simp_all [Exchange.TookSecondary, Change.inFilter]

/-- Adding a rule asks the primary filter, and the secondary one if that takes the rule. If only the
secondary filter refuses the rule, it counts as added exactly when that filter is not known to
work. -/
theorem Accepting.tolerates (h : Accepting rule w es w' r) :
    ∃ a rest, es = ⟨.inFilter .primary .add rule, a⟩ :: rest ∧
      (a.reply = .done → ∃ b rest', rest = ⟨.inFilter .secondary .add rule, b⟩ :: rest' ∧
        (b.reply = .refused → (r = .ok true ↔ w = false))) := by
  cases h with
  | refused ha => exact ⟨_, _, rfl, by simp [ha]⟩
  | cutFirst ha => exact ⟨_, _, rfl, by simp [ha]⟩
  | both ha hb => exact ⟨_, _, rfl, fun _ => ⟨_, _, rfl, by simp [hb]⟩⟩
  | cutSecond ha hb => exact ⟨_, _, rfl, fun _ => ⟨_, _, rfl, by simp [hb]⟩⟩
  | tolerated ha hb => exact ⟨_, _, rfl, fun _ => ⟨_, _, rfl, by simp⟩⟩
  | undone ha hb hc => exact ⟨_, _, rfl, fun _ => ⟨_, _, rfl, by simp⟩⟩
  | cutUndo ha hb hc => exact ⟨_, _, rfl, fun _ => ⟨_, _, rfl, by simp⟩⟩

/-- Deleting a rule asks the primary filter. -/
theorem Unaccepting.asks_primary (h : Unaccepting rule w es r) :
    ∃ e ∈ es, e.change = .inFilter .primary .delete rule := by
  cases h <;> exact ⟨_, List.mem_cons_self, rfl⟩

/-- Deleting a rule asks the secondary filter exactly when that filter is known to work and nobody
interrupts before its turn. -/
theorem Unaccepting.asks_secondary_iff (h : Unaccepting rule w es r) :
    (∃ e ∈ es, e.change = .inFilter .secondary .delete rule) ↔
      w = true ∧ ∃ e ∈ es, e.change = .inFilter .primary .delete rule ∧ e.answer.reply ≠ .cut := by
  cases h with
  | cutFirst ha => simp [ha]
  | primary ha => simp
  | cutSecond ha hb => simp [ha]
  | both ha hb => simp [ha]

end Courses

namespace Toolkit

variable (k : Toolkit)

/-- Taking a rule out of the primary filter that the secondary filter refused. -/
theorem on_undoPrimary (rule : Rule) (error : String) (s : Session) :
    ∃ c t, (do
        if !(← k.applyTo .primary .delete rule) then
          k.say .error error
        return false : Action Bool).on s =
        (if c.reply = .cut then .error .interrupted else .ok false, t) ∧
      k.Asks s [⟨.inFilter .primary .delete rule, c⟩] t ∧ SameHoles s t := by
  obtain ⟨c, t, hc, asks, same⟩ := k.on_applyTo .primary .delete rule s
  refine ⟨c, ?_⟩
  rw [Action.on_bind, hc]
  cases c.reply with
  | done => exact ⟨t, rfl, asks, same⟩
  | cut => exact ⟨t, rfl, asks, same⟩
  | refused =>
    obtain ⟨u, hu, asks', same'⟩ := k.on_say .error error t
    refine ⟨u, ?_, asks.trans asks', same.trans same'⟩
    change ((do k.say .error error; return false : Action Bool)).on t = _
    rw [Action.on_bind, hu]
    rfl

/-- Offering a rule to the secondary filter that the primary filter took. -/
theorem on_acceptSecondary (rule : Rule) {a : Answer} (ha : a.reply = .done) (s : Session) :
    ∃ es r t, (k.acceptSecondary rule).on s = (r, t) ∧
      Accepting rule s.ipv6 (⟨.inFilter .primary .add rule, a⟩ :: es) t.ipv6 r ∧
      k.Asks s es t ∧ t.registry = s.registry := by
  obtain ⟨b, t, hb, asks, same⟩ := k.on_applyTo .secondary .add rule s
  rw [acceptSecondary, Action.on_bind, hb]
  cases hreply : b.reply with
  | done =>
    exact ⟨_, _, { t with ipv6 := true }, rfl, .both ha hreply, ⟨asks.spawned, asks.answers⟩,
      same.registry⟩
  | cut =>
    exact ⟨_, _, t, rfl, same.ipv6 ▸ .cutSecond ha hreply, asks, same.registry⟩
  | refused =>
    simp only [Reply.result, Bool.false_eq_true, if_false, Action.on_bind, Action.on_get]
    cases hipv6 : t.ipv6 with
    | true =>
      -- The filter has to take the rule, so the primary one is asked to give it back.
      obtain ⟨u, hu, asks', same'⟩ := k.on_say .error ("Could not add ACCEPT rule using '" ++
        k.paths.ip6tables ++ "', aborting operation") t
      obtain ⟨c, v, hv, asks'', same''⟩ := k.on_undoPrimary rule
        ("Could not remove ACCEPT rule using '" ++ k.paths.iptables ++ "' after aborting") u
      have sv : SameHoles s v := (same.trans same').trans same''
      have hs : s.ipv6 = true := same.ipv6.symm.trans hipv6
      have hvs : v.ipv6 = true := sv.ipv6.trans hs
      refine ⟨_, if c.reply = .cut then .error .interrupted else .ok false, v, ?_, ?_,
        (asks.trans asks').trans asks'', sv.registry⟩
      · rw [if_pos rfl, Action.on_bind, hu]
        exact hv
      · rw [hs, hvs]
        by_cases hc : c.reply = .cut
        · rw [if_pos hc]
          exact .cutUndo ha hreply hc
        · rw [if_neg hc]
          exact .undone ha hreply hc
    | false =>
      obtain ⟨u, hu, asks', same'⟩ := k.on_say .warn ("Could not add ACCEPT rule using '" ++
        k.paths.ip6tables ++ "', ignoring") t
      have su : SameHoles s u := same.trans same'
      have hs : s.ipv6 = false := same.ipv6.symm.trans hipv6
      refine ⟨_, .ok true, u, ?_, ?_, asks.trans asks', su.registry⟩
      · rw [if_neg Bool.false_ne_true, Action.on_bind, hu]
        rfl
      · rw [su.ipv6, hs]
        exact .tolerated ha hreply

/-- Adding an accept rule takes one of the courses of `Accepting`. -/
theorem on_accept (rule : Rule) (s : Session) :
    ∃ es r t, (k.accept rule).on s = (r, t) ∧ Accepting rule s.ipv6 es t.ipv6 r ∧
      k.Asks s es t ∧ t.registry = s.registry := by
  obtain ⟨a, t, ha, asks, same⟩ := k.on_applyTo .primary .add rule s
  rw [accept, Action.on_bind, ha]
  cases hreply : a.reply with
  | done =>
    obtain ⟨es, r, u, hu, course, asks', tracked⟩ := k.on_acceptSecondary rule hreply t
    rw [same.ipv6] at course
    exact ⟨_, r, u, hu, course, asks.trans asks', tracked.trans same.registry⟩
  | cut =>
    exact ⟨_, _, t, rfl, same.ipv6 ▸ .cutFirst hreply, asks, same.registry⟩
  | refused =>
    obtain ⟨u, hu, asks', same'⟩ := k.on_say .error
      ("Could not add ACCEPT rule using '" ++ k.paths.iptables ++ "'") t
    have su : SameHoles s u := same.trans same'
    refine ⟨_, .ok false, u, ?_, su.ipv6 ▸ .refused hreply, asks.trans asks', su.registry⟩
    simp only [Reply.result, Bool.false_eq_true, if_false, Action.on_bind, hu]
    rfl

/-- Deleting an accept rule takes one of the courses of `Unaccepting`. -/
theorem on_unaccept (rule : Rule) (s : Session) :
    ∃ es r t, (k.unaccept rule).on s = (r, t) ∧ Unaccepting rule s.ipv6 es r ∧
      k.Asks s es t ∧ SameHoles s t := by
  obtain ⟨a, t, ha, asks, same⟩ := k.on_applyTo .primary .delete rule s
  rw [unaccept, Action.on_bind, ha]
  -- A refusal stops nothing: the secondary filter is asked all the same.
  by_cases hcut : a.reply = .cut
  · rw [hcut]
    exact ⟨_, _, t, rfl, .cutFirst hcut, asks, same⟩
  simp only [Reply.result_of_ne_cut hcut, Action.on_bind, Action.on_get]
  cases hipv6 : t.ipv6 with
  | false =>
    refine ⟨_, _, t, rfl, ?_, asks, same⟩
    rw [← same.ipv6, hipv6]
    exact .primary hcut
  | true =>
    obtain ⟨b, u, hb, asks', same'⟩ := k.on_applyTo .secondary .delete rule t
    have hs : s.ipv6 = true := same.ipv6.symm.trans hipv6
    rw [if_pos rfl, Action.on_bind, hb, hs]
    by_cases hcut' : b.reply = .cut
    · rw [hcut']
      exact ⟨_, _, u, rfl, .cutSecond hcut hcut', asks.trans asks', same.trans same'⟩
    · refine ⟨_, _, u, ?_, .both hcut hcut', asks.trans asks', same.trans same'⟩
      rw [Reply.result_of_ne_cut hcut']
      simp

end Toolkit

end Pinhole
