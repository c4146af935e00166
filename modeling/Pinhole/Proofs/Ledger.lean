import Pinhole.Proofs.Exchange
import Mathlib.Data.Multiset.AddSub

/-!
# The rules that the tools keep

A `Ledger` is the system behind the tools, as far as rules go: each tool keeps a number of copies of
each rule. A change that is reported as done takes effect, so that adding puts one copy in and
deleting takes one copy out if there is any; with any other answer it has none. `Ledger.after`
follows some exchanges through a ledger.

Ledgers are never seen by the program. They are what its answers are measured against.
-/

namespace Pinhole

/-- The copies of rules that each tool keeps. -/
abbrev Ledger := Tool → Multiset Rule

namespace Ledger

/-- The ledger without any rules. -/
def empty : Ledger := fun _ => 0

/-- A ledger after a change that took effect. -/
def change (m : Ledger) (c : Change) : Ledger :=
  Function.update m c.tool
    (match c.verb with
    | .add => c.rule ::ₘ m c.tool
    | .delete => (m c.tool).erase c.rule)

/-- A ledger after an exchange. -/
def step (m : Ledger) (e : Exchange) : Ledger :=
  if e.answer.reply = .done then m.change e.change else m

/-- A ledger after some exchanges. -/
def after (m : Ledger) (es : List Exchange) : Ledger := es.foldl step m

@[simp] theorem after_nil (m : Ledger) : m.after [] = m := rfl

@[simp] theorem after_cons (m : Ledger) (e : Exchange) (es : List Exchange) :
    m.after (e :: es) = (m.step e).after es := rfl

theorem after_append (m : Ledger) (es fs : List Exchange) :
    m.after (es ++ fs) = (m.after es).after fs := List.foldl_append

/-! ## Copies -/

/-- What a change concerns: one rule of one tool. -/
def place (c : Change) : Tool × Rule := (c.tool, c.rule)

theorem place_inFilter (f : Filter) (verb : Verb) (r : Rule) :
    place (.inFilter f verb r) = (.filter f, r) := rfl

/-- A change leaves the copies at every other place alone. -/
theorem count_change_of_ne (m : Ledger) {c : Change} {t : Tool} {r : Rule}
    (h : place c ≠ (t, r)) : (m.change c t).count r = (m t).count r := by
  by_cases ht : t = c.tool
  · subst ht
    have hr : r ≠ c.rule := fun e => h (by rw [e]; rfl)
    rw [change, Function.update_self]
    cases c.verb with
    | add => exact Multiset.count_cons_of_ne hr _
    | delete => exact Multiset.count_erase_of_ne hr _
  · rw [change, Function.update_of_ne ht]

/-- Adding puts one copy in. -/
theorem count_change_add (m : Ledger) {c : Change} (h : c.verb = .add) (t : Tool) (r : Rule) :
    (m.change c t).count r = (m t).count r + if place c = (t, r) then 1 else 0 := by
  split
  · rename_i hp
    obtain ⟨rfl, rfl⟩ := Prod.mk.inj hp
    rw [change, Function.update_self, h]
    exact Multiset.count_cons_self c.rule _
  · rename_i hp
    exact m.count_change_of_ne hp

/-- Deleting takes one copy out, if there is any. -/
theorem count_change_delete (m : Ledger) {c : Change} (h : c.verb = .delete) (t : Tool)
    (r : Rule) :
    (m.change c t).count r = (m t).count r - if place c = (t, r) then 1 else 0 := by
  split
  · rename_i hp
    obtain ⟨rfl, rfl⟩ := Prod.mk.inj hp
    rw [change, Function.update_self, h]
    exact Multiset.count_erase_self c.rule _
  · rename_i hp
    exact m.count_change_of_ne hp

/-- Ledgers are equal when they have as many copies of every rule everywhere. -/
theorem ext_count {m n : Ledger} (h : ∀ t r, (m t).count r = (n t).count r) : m = n :=
  funext fun t => Multiset.ext.2 (h t)

/-- The copies of a rule that a filter keeps. -/
def copies (m : Ledger) (f : Filter) (r : Rule) : Nat := (m (.filter f)).count r

theorem mem_iff_copies (m : Ledger) (f : Filter) (r : Rule) :
    r ∈ m (.filter f) ↔ 0 < m.copies f r := Multiset.count_pos.symm

variable (m : Ledger) {f g : Filter} {r : Rule} {e : Exchange}

/-- An exchange about a rule concerns the copies of that rule only. -/
theorem copies_step_of_rule_ne (h : e.change.rule ≠ r) : (m.step e).copies f r = m.copies f r := by
  unfold step
  split
  · exact m.count_change_of_ne fun hp => h (Prod.mk.inj hp).2
  · rfl

/-- An exchange with one filter leaves the other alone. -/
theorem copies_step_of_filter_ne (h : g ≠ f) (verb : Verb) (r : Rule) (a : Answer) :
    (m.step ⟨.inFilter g verb r, a⟩).copies f r = m.copies f r := by
  unfold step
  split
  · exact m.count_change_of_ne fun hp => h (Tool.filter.inj (Prod.mk.inj hp).1)
  · rfl

/-- Adding a rule puts one copy in when it is done. -/
@[simp] theorem copies_step_add (f : Filter) (r : Rule) (a : Answer) :
    (m.step ⟨.inFilter f .add r, a⟩).copies f r =
      m.copies f r + if a.reply = .done then 1 else 0 := by
  unfold step
  split
  · have hcount := m.count_change_add (c := .inFilter f .add r) rfl (.filter f) r
    rwa [if_pos (place_inFilter f .add r)] at hcount
  · rfl

/-- Deleting a rule takes one copy out when it is done, if there is any. -/
@[simp] theorem copies_step_delete (f : Filter) (r : Rule) (a : Answer) :
    (m.step ⟨.inFilter f .delete r, a⟩).copies f r =
      m.copies f r - if a.reply = .done then 1 else 0 := by
  unfold step
  split
  · have hcount := m.count_change_delete (c := .inFilter f .delete r) rfl (.filter f) r
    rwa [if_pos (place_inFilter f .delete r)] at hcount
  · rfl

@[simp] theorem copies_secondary_step_primary (verb : Verb) (r : Rule) (a : Answer) :
    (m.step ⟨.inFilter .primary verb r, a⟩).copies .secondary r = m.copies .secondary r :=
  m.copies_step_of_filter_ne (by decide) verb r a

@[simp] theorem copies_primary_step_secondary (verb : Verb) (r : Rule) (a : Answer) :
    (m.step ⟨.inFilter .secondary verb r, a⟩).copies .primary r = m.copies .primary r :=
  m.copies_step_of_filter_ne (by decide) verb r a

/-- Exchanges about other places leave the copies at a place alone. -/
theorem count_after_of_ne {t : Tool} {es : List Exchange} (h : ∀ e ∈ es, place e.change ≠ (t, r)) :
    (m.after es t).count r = (m t).count r := by
  induction es generalizing m with
  | nil => rfl
  | cons e es ih =>
    have hstep : (m.step e t).count r = (m t).count r := by
      unfold step
      split
      · exact m.count_change_of_ne (h e List.mem_cons_self)
      · rfl
    rw [after_cons, ih (m.step e) fun d hd => h d (List.mem_cons_of_mem e hd), hstep]

/-- Exchanges about other rules leave the copies of a rule alone. -/
theorem copies_after_of_rule_ne {es : List Exchange} (h : ∀ e ∈ es, e.change.rule ≠ r) :
    (m.after es).copies f r = m.copies f r :=
  m.count_after_of_ne fun e he hp => h e he (Prod.mk.inj hp).2

/-- What comes later and is about other rules leaves the copies of a rule alone. -/
theorem copies_after_append_of_ne {fs : List Exchange} (h : ∀ e ∈ fs, e.change.rule ≠ r)
    (es : List Exchange) : (m.after (es ++ fs)).copies f r = (m.after es).copies f r := by
  rw [after_append, copies_after_of_rule_ne _ h]

/-- What an exchange makes of the copies of a rule depends on how many there were only. -/
theorem copies_step_congr {m n : Ledger} (h : m.copies f r = n.copies f r) (e : Exchange) :
    (m.step e).copies f r = (n.step e).copies f r := by
  unfold step
  split
  · cases hverb : e.change.verb with
    | add => rw [copies, copies, count_change_add m hverb, count_change_add n hverb, ← copies, h,
        copies]
    | delete => rw [copies, copies, count_change_delete m hverb, count_change_delete n hverb,
        ← copies, h, copies]
  · exact h

/-- The copies of a rule depend on the exchanges about that rule only. -/
theorem copies_after_about {m n : Ledger} (h : m.copies f r = n.copies f r) (es : List Exchange) :
    (m.after (about r es)).copies f r = (n.after es).copies f r := by
  -- The two ledgers drift apart at other rules, so only the copies of this one are kept equal.
  induction es generalizing m n with
  | nil => exact h
  | cons e es ih =>
    by_cases hr : e.change.rule = r
    · rw [about, List.filter_cons_of_pos (by simp [hr]), after_cons, after_cons]
      exact ih (copies_step_congr h e)
    · rw [about, List.filter_cons_of_neg (by simp [hr]), after_cons]
      exact ih (h.trans (n.copies_step_of_rule_ne hr).symm)

/-! ## Filters that tell the truth -/

/-- In some exchanges, deleting a rule that opens a hole works exactly when the tool keeps a copy
of it. -/
def Honest (m : Ledger) : List Exchange → Prop
  | [] => True
  | e :: es =>
    (e.change.verb = .delete → e.change.rule.isAccept = true →
      (e.answer.reply = .done ↔ e.change.rule ∈ m e.change.tool)) ∧ (m.step e).Honest es

theorem honest_append {m : Ledger} {es fs : List Exchange} :
    m.Honest (es ++ fs) ↔ m.Honest es ∧ (m.after es).Honest fs := by
  induction es generalizing m with
  | nil => simp [Honest]
  | cons e es ih => rw [List.cons_append, Honest, Honest, ih, and_assoc, after_cons]

/-- Adding may end in any way. -/
@[simp] theorem honest_add_cons {m : Ledger} (f : Filter) (r : Rule) (a : Answer)
    (es : List Exchange) :
    m.Honest (⟨.inFilter f .add r, a⟩ :: es) ↔ (m.step ⟨.inFilter f .add r, a⟩).Honest es := by
  simp [Honest, Change.inFilter]

/-- Deleting a rule that opens a hole works exactly when there is a copy. -/
theorem honest_delete_cons {m : Ledger} (f : Filter) {r : Rule} (opens : r.isAccept = true)
    (a : Answer) (es : List Exchange) :
    m.Honest (⟨.inFilter f .delete r, a⟩ :: es) ↔
      (a.reply = .done ↔ 0 < m.copies f r) ∧
        (m.step ⟨.inFilter f .delete r, a⟩).Honest es := by
  rw [← mem_iff_copies]
  simp [Honest, Change.inFilter, opens]

instance decidableHonest (m : Ledger) : (es : List Exchange) → Decidable (m.Honest es)
  | [] => inferInstanceAs (Decidable True)
  | e :: es =>
    have := decidableHonest (m.step e) es
    inferInstanceAs (Decidable ((_ → _ → (_ ↔ _)) ∧ (m.step e).Honest es))

end Ledger

end Pinhole
