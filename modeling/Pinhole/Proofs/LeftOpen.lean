import Mathlib.Data.List.Nodup
import Pinhole.Proofs.Digits
import Pinhole.Proofs.Service

/-!
# What plugging all holes leaves open

Plugging all holes goes through the holes that are tracked at its start, TCP before UDP and each
protocol by port and interface, and asks for the same changes whatever is replied. The holes that
stay tracked are those of which some filter refused to delete the rule. If there are any, the failure
lists what they are called, and no two holes are called the same (`Hole.describe_injective`).

`plugAll_leaves_refused` says so of every session that calls lead to.
-/

namespace Pinhole

/-! ## What holes are called -/

/-- A text is taken apart at its first blank in one way. -/
theorem eq_of_append_blank {xs ys us vs : List Char} (hx : ' ' ∉ xs) (hy : ' ' ∉ ys)
    (e : xs ++ ' ' :: us = ys ++ ' ' :: vs) : xs = ys ∧ us = vs := by
  rcases List.append_eq_append_iff.1 e with ⟨as, rfl, hrest⟩ | ⟨as, rfl, hrest⟩
  all_goals
    cases as with
    | nil => simp_all
    | cons a as =>
      obtain ⟨rfl, -⟩ := List.cons.inj hrest
      simp_all

namespace Hole

/-- Where a hole is open, as readers are told. -/
def place (h : Hole) : String :=
  if h.interface.isEmpty then "any interface" else "'" ++ h.interface ++ "'"

/-- What a hole is called, with the two blanks at which it is taken apart. -/
theorem toList_describe (h : Hole) :
    h.describe.toList = h.protocol.title.toList ++
      ' ' :: ("port ".toList ++ ((toString h.port).toList ++ ' ' :: ("on " ++ h.place).toList)) := by
  simp only [describe, place, String.toList_append, List.append_assoc]
  rfl

/-- An interface that is named stands in quotes. -/
theorem interface_eq_of_place {g h : Hole} (e : g.place = h.place) : g.interface = h.interface := by
  have quoted {i : String} : "any interface" ≠ "'" ++ i ++ "'" := by
    intro hi
    have hfront := congrArg (·.toList.head?) hi
    simp at hfront
  by_cases hg : g.interface = "" <;> by_cases hh : h.interface = "" <;>
    simp_all [place, quoted.symm]

/-- Different holes are called differently. -/
theorem describe_injective {g h : Hole} (e : g.describe = h.describe) : g = h := by
  have noBlank (p : Protocol) : ' ' ∉ p.title.toList := by cases p <;> decide
  have hchars := congrArg String.toList e
  rw [toList_describe, toList_describe] at hchars
  obtain ⟨htitle, hrest⟩ := eq_of_append_blank (noBlank _) (noBlank _) hchars
  obtain ⟨hport, hplace⟩ := eq_of_append_blank (not_mem_toList_toString _)
    (not_mem_toList_toString _) (List.append_cancel_left hrest)
  rw [String.toList_append, String.toList_append, List.append_cancel_left_eq] at hplace
  have hprotocol : g.protocol = h.protocol := by
    cases hg : g.protocol <;> cases hh : h.protocol <;> simp_all [Protocol.title]
  have hnumber : g.port = h.port := eq_of_toList_toString hport
  have hinterface : g.interface = h.interface := interface_eq_of_place (String.toList_inj.1 hplace)
  cases g
  cases h
  simp_all

end Hole

/-! ## The order of holes -/

namespace Registry

/-- The holes of TCP come before those of UDP. -/
theorem holes_eq_append (g : Registry) : g.holes = g.ofProtocol .tcp ++ g.ofProtocol .udp := by
  unfold ofProtocol
  have sorted := g.sorted
  generalize g.holes = holes at sorted ⊢
  induction holes with
  | nil => rfl
  | cons h hs ih =>
    obtain ⟨first, rest⟩ := List.pairwise_cons.1 sorted
    cases hh : h.protocol with
    | tcp => simpa [hh] using ih rest
    | udp =>
      -- What comes after a hole of UDP is a hole of UDP.
      have hnone : hs.filter (·.protocol = .tcp) = [] := by
        refine List.filter_eq_nil_iff.2 fun x hx hp => ?_
        have htcp : x.protocol = .tcp := by simpa using hp
        rcases first x hx with hlt | ⟨heq, -⟩
        · simp [hh, htcp, Protocol.rank] at hlt
        · simp [hh, htcp, Protocol.rank] at heq
      have hrest := ih rest
      rw [hnone, List.nil_append] at hrest
      simpa [hh, hnone] using hrest

/-- The holes of one protocol come by port and by interface. -/
theorem pairwise_ofProtocol (g : Registry) (p : Protocol) :
    (g.ofProtocol p).Pairwise fun a b =>
      a.port < b.port ∨ a.port = b.port ∧ a.interface < b.interface := by
  have sorted : (g.ofProtocol p).Pairwise Hole.before := g.sorted.sublist List.filter_sublist
  refine sorted.imp_of_mem fun {a b} ha hb hbefore => ?_
  have hpa : a.protocol = p := by simpa using (List.mem_filter.1 ha).2
  have hpb : b.protocol = p := by simpa using (List.mem_filter.1 hb).2
  simpa [Hole.before, hpa, hpb] using hbefore

/-- What is tracked after a hole was to be closed was tracked before, in the same order. -/
theorem closed_sublist (g : Registry) (h : Hole) (r : Except Stop Bool) :
    (g.closed h r).holes.Sublist g.holes := by
  match r with
  | .ok true => exact List.filter_sublist
  | .ok false | .error e => exact List.Sublist.refl _

end Registry

/-! ## Going through the holes -/

/-- The changes that closing a hole asks for, by whether the secondary filter has to work. -/
def Hole.closingChanges (known : Bool) (h : Hole) : List Change :=
  if known then [.inFilter .primary .delete h.rule, .inFilter .secondary .delete h.rule]
  else [.inFilter .primary .delete h.rule]

/-- Some filter refused to delete a rule. -/
def Refused (es : List Exchange) (rule : Rule) : Prop :=
  ∃ e ∈ es, e.change.rule = rule ∧ e.answer.reply = .refused

section Turns

variable {k : Toolkit} {h x : Hole} {s t : Session} {es fs : List Exchange} {w : Bool}
  {r : Except Stop Bool}

theorem Hole.rule_eq_of_mem_closingChanges {c : Change} (hc : c ∈ h.closingChanges w) :
    c.rule = h.rule := by
  cases w <;> simp [closingChanges] at hc
  · rw [hc]
    rfl
  · rcases hc with rfl | rfl <;> rfl

/-- Without an interrupt the changes that closing a hole asks for do not depend on the replies. -/
theorem Unaccepting.map_change (course : Unaccepting h.rule w es r)
    (uncut : ∀ e ∈ es, e.answer.reply ≠ .cut) : es.map (·.change) = h.closingChanges w := by
  cases course with
  | cutFirst ha => exact absurd ha (uncut _ List.mem_cons_self)
  | cutSecond ha hb => exact absurd hb (uncut _ (List.mem_cons_of_mem _ List.mem_cons_self))
  | primary ha => rfl
  | both ha hb => rfl

/-- Without an interrupt a rule counts as deleted unless some filter refused. -/
theorem Unaccepting.refused_iff (course : Unaccepting h.rule w es r)
    (uncut : ∀ e ∈ es, e.answer.reply ≠ .cut) : Refused es h.rule ↔ r ≠ .ok true := by
  rw [ne_eq, course.eq_ok_true_iff, Refused]
  push Not
  refine exists_congr fun e => and_congr_right fun he => ?_
  rw [and_iff_right (course.rule_eq he)]
  have hcut := uncut e he
  cases hreply : e.answer.reply <;> simp_all

/-- Refusals about other holes say nothing of a hole. -/
theorem not_refused_of_ne (hne : x ≠ h) (about : ∀ e ∈ es, e.change.rule = h.rule) :
    ¬ Refused es x.rule := by
  rintro ⟨e, he, hrule, -⟩
  exact Hole.rule_ne_of_about hne about e he hrule

theorem refused_append {rule : Rule} :
    Refused (es ++ fs) rule ↔ Refused es rule ∨ Refused fs rule := by
  simp [Refused, or_and_right, exists_or]

end Turns

/-- Plugging some holes without an interrupt asks for the same changes whatever is replied. Those
stay tracked of which some filter refused to delete the rule. -/
theorem PluggingEach.leaves_refused {k : Toolkit} {hs : List Hole} {s t : Session}
    {r : Except Stop Unit} (course : PluggingEach k hs s t r) (nodup : hs.Nodup)
    (ready : ∀ h ∈ hs, h ∈ s.registry ∧ h.Valid) :
    ∃ es, k.Asks s es t ∧ ((∃ e ∈ es, e.answer.reply = .cut) → r = .error .interrupted) ∧
      ((∀ e ∈ es, e.answer.reply ≠ .cut) → r = .ok () ∧
        es.map (·.change) = hs.flatMap (·.closingChanges s.ipv6) ∧
        t.registry.holes.Sublist s.registry.holes ∧
        ∀ x, x ∈ t.registry ↔ x ∈ s.registry ∧ (x ∈ hs → Refused es x.rule)) := by
  induction course with
  | @nil s => exact ⟨[], .refl k s, by simp, fun _ => ⟨rfl, rfl, List.Sublist.refl _, by simp⟩⟩
  | @cons h hs s t u o r first rest ih =>
    obtain ⟨old, valid⟩ := ready h List.mem_cons_self
    obtain ⟨hnew, nodup⟩ := List.nodup_cons.1 nodup
    obtain ⟨es, q, hq, course, asks, flag, tracked⟩ := first.of_mem valid old
    obtain ⟨fs, asks', stopped, complete⟩ := ih nodup fun x hx => by
      obtain ⟨old', valid'⟩ := ready x (List.mem_cons_of_mem h hx)
      have hne : x ≠ h := fun e => hnew (e ▸ hx)
      rw [tracked, Registry.mem_closed_iff]
      exact ⟨⟨old', fun e => absurd e hne⟩, valid'⟩
    refine ⟨es ++ fs, asks.trans asks', ?_, fun uncut => ?_⟩
    · rintro ⟨e, he, hcut⟩
      rcases List.mem_append.1 he with he | he
      · -- The first hole did have its turn, so nobody interrupted it.
        obtain ⟨x, rfl⟩ := course.stopped_iff.2 ⟨e, he, hcut⟩
        cases hq
      · exact stopped ⟨e, he, hcut⟩
    · obtain ⟨uncut_es, uncut_fs⟩ := List.forall_mem_append.1 uncut
      obtain ⟨hr, changes, sublist, mem_u⟩ := complete uncut_fs
      have about : ∀ e ∈ fs, e.change.rule ≠ h.rule := by
        intro e he hrule
        have hmem : e.change ∈ hs.flatMap (·.closingChanges t.ipv6) :=
          changes ▸ List.mem_map_of_mem he
        obtain ⟨g, hg, hc⟩ := List.mem_flatMap.1 hmem
        have hgh := Hole.rule_injective ((Hole.rule_eq_of_mem_closingChanges hc).symm.trans hrule)
        exact hnew (hgh ▸ hg)
      refine ⟨hr, ?_, ?_, fun x => ?_⟩
      · rw [List.map_append, course.map_change uncut_es, changes, flag, List.flatMap_cons]
      · exact sublist.trans (tracked ▸ Registry.closed_sublist _ _ _)
      · rw [mem_u, tracked, Registry.mem_closed_iff, refused_append]
        by_cases hx : x = h
        · subst hx
          have hnone : ¬ Refused fs x.rule := fun ⟨e, he, hrule, _⟩ => about e he hrule
          simp [hnew, hnone, course.refused_iff uncut_es]
        · have hnone : ¬ Refused es x.rule :=
            not_refused_of_ne hx fun e he => course.rule_eq he
          simp [hx, hnone]
  | @stopped h hs s t e first =>
    obtain ⟨old, valid⟩ := ready h List.mem_cons_self
    obtain ⟨es, q, hq, course, asks, -, -⟩ := first.of_mem valid old
    obtain rfl : q = .error e := Hole.plugged_eq_error_iff.1 hq.symm
    obtain ⟨d, hd, hcut⟩ := course.exists_cut
    exact ⟨es, asks, fun _ => by rw [course.error_eq], fun uncut => absurd hcut (uncut d hd)⟩

/-- When no hole is tracked, plugging all holes asks for nothing. -/
theorem Toolkit.plugAll_of_holes_eq_nil (k : Toolkit) {s : Session} (none : s.registry.holes = []) :
    k.plugAll.on s = (.ok (), s) := by
  obtain ⟨r, t, ht, course⟩ := k.on_plugAll s
  rw [none] at course
  cases course
  rw [ht, s.registry.pluggedAll_eq_ok_iff.2 none]

/-- Whatever a toolkit was asked for before, on a dry run or not: plugging all holes is stopped if
the user interrupts it. Otherwise

* it asks once for the changes that close each tracked hole, TCP before UDP and each protocol by
  port and interface, whatever is replied;
* the holes that stay tracked are those of which some filter refused to delete the rule;
* it succeeds exactly when there are none, and then doing it again asks for nothing and succeeds;
* if there are some, its failure counts them and lists what they are called, in the same order and
  no two alike. -/
theorem plugAll_leaves_refused (k : Toolkit) (always : Bool) (calls : List Call) :
    let s := k.serve calls { ipv6 := always }
    let c := k.plugAll.on s
    let left := c.2.registry.holes
    ∃ es, k.Asks s es c.2 ∧ ((∃ e ∈ es, e.answer.reply = .cut) → c.1 = .error .interrupted) ∧
      ((∀ e ∈ es, e.answer.reply ≠ .cut) →
        es.map (·.change) = s.registry.holes.flatMap (·.closingChanges s.ipv6) ∧
        s.registry.holes.Nodup ∧
        s.registry.holes = s.registry.ofProtocol .tcp ++ s.registry.ofProtocol .udp ∧
        (∀ p, (s.registry.ofProtocol p).Pairwise fun a b =>
          a.port < b.port ∨ a.port = b.port ∧ a.interface < b.interface) ∧
        (∀ h, h ∈ left ↔ h ∈ s.registry.holes ∧ Refused es h.rule) ∧
        left.Sublist s.registry.holes ∧
        (c.1 = .ok () ↔ left = []) ∧
        (left ≠ [] → ∃ f, c.1 = .error (.failed f) ∧ f.exitCode = 20 ∧
          f.message = "Failed to plug all holes (" ++ toString left.length ++ " still open)" ∧
          f.remaining = left.map (·.describe)) ∧
        (left.map (·.describe)).Nodup ∧
        (c.1 = .ok () → k.plugAll.on c.2 = (.ok (), c.2))) := by
  intro s c left
  obtain ⟨r, t, ht, course⟩ := k.on_plugAll s
  have hc : c = (t.registry.pluggedAll r, t) := ht
  have valid : ∀ h ∈ s.registry, h.Valid :=
    (k.moves_serve calls _).valid fun h tracked => absurd tracked List.not_mem_nil
  obtain ⟨es, asks, stopped, complete⟩ :=
    course.leaves_refused s.registry.nodup fun h hh => ⟨hh, valid h hh⟩
  refine ⟨es, hc ▸ asks, fun hcut => ?_, fun uncut => ?_⟩
  · rw [hc, stopped hcut]
    rfl
  obtain ⟨rfl, changes, sublist, tracked⟩ := complete uncut
  have hleft : left = t.registry.holes := by simp only [left, hc]
  rw [hc]
  refine ⟨changes, s.registry.nodup, s.registry.holes_eq_append, s.registry.pairwise_ofProtocol,
    fun h => ?_, hleft ▸ sublist, ?_, fun hne => ?_, ?_, fun hok => ?_⟩
  · rw [hleft]
    refine (tracked h).trans (and_congr_right fun hs => ?_)
    exact ⟨fun refused => refused hs, fun refused _ => refused⟩
  · rw [hleft]
    exact t.registry.pluggedAll_eq_ok_iff
  · rw [hleft] at hne ⊢
    exact ⟨_, Registry.pluggedAll_of_ne hne, rfl, rfl, rfl⟩
  · rw [hleft]
    exact t.registry.nodup.map fun _ _ => Hole.describe_injective
  · exact k.plugAll_of_holes_eq_nil (t.registry.pluggedAll_eq_ok_iff.1 hok)

end Pinhole
