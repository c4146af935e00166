import Pinhole.Proofs.Service

/-!
# Attempts to open holes

Holes that are requested are opened one after the other, up to the first that cannot be opened or to
an interrupt. `Toolkit.openAll` tells which attempts were finished, and with which outcomes;
`Attempts.InTurn` says what this means in terms of punches.

Afterwards the tracked holes are plugged. What this asks of the tools is told by
`PluggingEach.asks_once`: each of the holes has its turn, unless the user interrupts.
-/

namespace Pinhole

/-! ## Opening holes -/

/-- A finished attempt to open a hole. -/
structure Attempt where
  protocol : Protocol
  port : Int
  outcome : Outcome
  deriving DecidableEq, Repr

/-- What becomes of opening some holes: the attempts that were finished, whether the next one was
interrupted, and the session after that. -/
structure Attempts where
  finished : List Attempt := []
  interrupted : Bool := false
  session : Session

namespace Attempts

/-- The attempt that failed. -/
def failed? (a : Attempts) : Option Attempt := a.finished.find? (!·.outcome.isOk)

/-- The number of attempts that were begun. -/
def begun (a : Attempts) : Nat := a.finished.length + a.interrupted.toNat

/-- The attempts with another one before them. -/
def after (a : Attempts) (x : Attempt) : Attempts := { a with finished := x :: a.finished }

/-- An attempt that succeeded is not the one that failed. -/
theorem failed?_after {a : Attempts} {x : Attempt} (ok : x.outcome.isOk = true) :
    (a.after x).failed? = a.failed? := by
  simp [failed?, after, ok]

end Attempts

namespace Toolkit

/-- Opens holes one after the other, up to the first that cannot be opened. -/
def openAll (k : Toolkit) (interface : String) : List (Protocol × Int) → Session → Attempts
  | [], s => { session := s }
  | (protocol, port) :: rest, s =>
    match (k.punch protocol (.int port) interface).on s with
    | (.error _, t) => { interrupted := true, session := t }
    | (.ok o, t) =>
      if o.isOk then (k.openAll interface rest t).after ⟨protocol, port, o⟩
      else { finished := [⟨protocol, port, o⟩], session := t }

/-- The calls that open some holes. -/
def punches (interface : String) (ports : List (Protocol × Int)) : List Call :=
  ports.map fun p => .punch p.1 (.int p.2) interface

end Toolkit

/-- The attempts are made in the order of the request, one punch each. All but the last one succeed,
and if that one does too, nothing was left out except after an interrupt. -/
structure Attempts.InTurn (a : Attempts) (k : Toolkit) (interface : String)
    (ports : List (Protocol × Int)) (s : Session) : Prop where
  order : a.finished.map (fun x => (x.protocol, x.port)) = ports.take a.finished.length
  outcome : ∀ (i : Nat) (h : i < a.finished.length),
    ((k.punch a.finished[i].protocol (.int a.finished[i].port) interface).on
      (k.serve (Toolkit.punches interface (ports.take i)) s)).1 = .ok a.finished[i].outcome
  succeeded : ∀ x ∈ a.finished.dropLast, x.outcome.isOk = true
  kind : ∀ x, a.failed? = some x →
    x.outcome.kind = .validation ∨ x.outcome.kind = .external
  cut : a.interrupted = true → a.failed? = none ∧ a.finished.length < ports.length
  complete : a.interrupted = false → a.failed? = none → a.finished.length = ports.length
  session : a.session = k.serve (Toolkit.punches interface (ports.take a.begun)) s

namespace Attempts.InTurn

variable {k : Toolkit} {interface : String} {ports : List (Protocol × Int)} {s t : Session}
  {protocol : Protocol} {port : Int}

theorem nil : InTurn { session := s } k interface [] s where
  order := rfl
  outcome i h := absurd h (Nat.not_lt_zero i)
  succeeded _ hx := absurd hx List.not_mem_nil
  kind _ hx := nomatch hx
  cut := nofun
  complete _ _ := rfl
  session := rfl

/-- The first attempt is interrupted. -/
theorem stopped {e : Stop} (first : (k.punch protocol (.int port) interface).on s = (.error e, t)) :
    InTurn { interrupted := true, session := t } k interface ((protocol, port) :: ports) s where
  order := rfl
  outcome i h := absurd h (Nat.not_lt_zero i)
  succeeded _ hx := absurd hx List.not_mem_nil
  kind _ hx := nomatch hx
  cut _ := ⟨rfl, Nat.zero_lt_succ _⟩
  complete := nofun
  session := (congrArg Prod.snd first).symm

/-- The first attempt fails. -/
theorem failed {o : Outcome} (first : (k.punch protocol (.int port) interface).on s = (.ok o, t))
    (fails : o.isOk = false) :
    InTurn { finished := [⟨protocol, port, o⟩], session := t } k interface
      ((protocol, port) :: ports) s where
  order := rfl
  outcome i h := by
    obtain rfl : i = 0 := Nat.lt_one_iff.1 h
    exact congrArg Prod.fst first
  succeeded _ hx := absurd hx List.not_mem_nil
  kind x hx := by
    obtain ⟨r, u, hu, course⟩ := k.on_punch protocol (.int port) interface s
    obtain ⟨rfl, rfl⟩ : .ok o = r ∧ t = u := Prod.mk.inj (first.symm.trans hu)
    simp only [failed?, List.find?_cons, fails, Bool.not_false, Option.some.injEq] at hx
    subst hx
    exact course.kind fails
  cut := nofun
  complete _ none := by simp [failed?, fails] at none
  session := (congrArg Prod.snd first).symm

/-- The first attempt succeeds, and the others are made. -/
theorem cons {a : Attempts} {o : Outcome} (rest : a.InTurn k interface ports t)
    (first : (k.punch protocol (.int port) interface).on s = (.ok o, t)) (ok : o.isOk = true) :
    (a.after ⟨protocol, port, o⟩).InTurn k interface ((protocol, port) :: ports) s := by
  have hfailed : (a.after ⟨protocol, port, o⟩).failed? = a.failed? := failed?_after ok
  have hperform : k.perform s (.punch protocol (.int port) interface) = t :=
    congrArg Prod.snd first
  -- What follows the first punch is served in the session that it leaves.
  have hserve : ∀ n, k.serve (Toolkit.punches interface (((protocol, port) :: ports).take (n + 1))) s =
      k.serve (Toolkit.punches interface (ports.take n)) t := by
    intro n
    rw [← hperform]
    rfl
  have hbegun : (a.after ⟨protocol, port, o⟩).begun = a.begun + 1 := Nat.add_right_comm _ _ _
  constructor
  · exact congrArg ((protocol, port) :: ·) rest.order
  · intro i h
    cases i with
    | zero => exact congrArg Prod.fst first
    | succ i =>
      rw [hserve]
      exact rest.outcome i (Nat.lt_of_succ_lt_succ h)
  · intro x hx
    cases hrest : a.finished with
    | nil => simp [after, hrest] at hx
    | cons y ys =>
      simp only [after, hrest, List.dropLast_cons_cons, List.mem_cons] at hx
      rcases hx with rfl | hx
      · exact ok
      · exact rest.succeeded x (hrest ▸ hx)
  · rw [hfailed]
    exact rest.kind
  · rw [hfailed]
    exact fun hcut => (rest.cut hcut).imp_right Nat.succ_lt_succ
  · rw [hfailed]
    exact fun hcut none => congrArg (· + 1) (rest.complete hcut none)
  · rw [hbegun, hserve]
    exact rest.session

end Attempts.InTurn

/-- Opening holes one after the other is what it should be. -/
theorem Toolkit.inTurn_openAll (k : Toolkit) (interface : String) (ports : List (Protocol × Int))
    (s : Session) : (k.openAll interface ports s).InTurn k interface ports s := by
  induction ports generalizing s with
  | nil => exact .nil
  | cons p rest ih =>
    obtain ⟨protocol, port⟩ := p
    rw [openAll]
    rcases hfirst : (k.punch protocol (.int port) interface).on s with ⟨r, t⟩
    cases r with
    | error e => exact .stopped hfirst
    | ok o =>
      simp only
      cases hok : o.isOk with
      | true => exact (ih t).cons hfirst hok
      | false => exact .failed hfirst hok

/-! ## Closing holes -/

/-- Plugging some holes deletes rules of theirs. It is stopped exactly when the user interrupts, and
otherwise the primary filter is asked once to delete the rule of each hole. -/
theorem PluggingEach.asks_once {k : Toolkit} {hs : List Hole} {s t : Session}
    {r : Except Stop Unit} (h : PluggingEach k hs s t r) (nodup : hs.Nodup)
    (ready : ∀ h ∈ hs, h ∈ s.registry ∧ h.Valid) :
    ∃ es, k.Asks s es t ∧
      (∀ e ∈ es, ∃ h ∈ hs, ∃ f, e.change = .inFilter f .delete h.rule) ∧
      ((∃ x, r = .error x) ↔ ∃ e ∈ es, e.answer.reply = .cut) ∧
      (r = .ok () → ∀ x : Hole,
        es.countP (fun e => e.change = .inFilter .primary .delete x.rule) =
          if x ∈ hs then 1 else 0) := by
  induction h with
  | @nil s => exact ⟨[], .refl k s, by simp, by simp, by simp⟩
  | @cons h hs s t u o r first rest ih =>
    obtain ⟨old, valid⟩ := ready h List.mem_cons_self
    obtain ⟨hnew, nodup⟩ := List.nodup_cons.1 nodup
    obtain ⟨es, q, hq, course, asks, -, tracked⟩ := first.of_mem valid old
    obtain ⟨fs, asks', about, stopped, once⟩ := ih nodup fun x hx => by
      obtain ⟨old', valid'⟩ := ready x (List.mem_cons_of_mem h hx)
      have hne : x ≠ h := fun e => hnew (e ▸ hx)
      rw [tracked, Registry.mem_closed_iff]
      exact ⟨⟨old', fun e => absurd e hne⟩, valid'⟩
    -- The first hole did have its turn, so nobody interrupted it.
    have huncut : ¬ ∃ e ∈ es, e.answer.reply = .cut := by
      rw [← course.stopped_iff]
      rintro ⟨x, rfl⟩
      cases hq
    refine ⟨es ++ fs, asks.trans asks', fun e he => ?_, ?_, fun hr x => ?_⟩
    · rcases List.mem_append.1 he with he | he
      · exact ⟨h, List.mem_cons_self, course.change_eq he⟩
      · obtain ⟨g, hg, hc⟩ := about e he
        exact ⟨g, List.mem_cons_of_mem h hg, hc⟩
    · rw [stopped]
      constructor
      · rintro ⟨e, he, hcut⟩
        exact ⟨e, List.mem_append_right es he, hcut⟩
      · rintro ⟨e, he, hcut⟩
        rcases List.mem_append.1 he with he | he
        · exact absurd ⟨e, he, hcut⟩ huncut
        · exact ⟨e, he, hcut⟩
    · rw [List.countP_append, once hr x]
      by_cases hx : x = h
      · subst hx
        rw [course.countP_primary, if_neg hnew, if_pos List.mem_cons_self]
      · -- The first hole has another rule.
        have hzero : es.countP (fun e => e.change = .inFilter .primary .delete x.rule) = 0 := by
          refine List.countP_eq_zero.2 fun e he hc => ?_
          have hrule : e.change.rule = x.rule := by
            rw [of_decide_eq_true hc]
            rfl
          exact Hole.rule_ne_of_about hx (fun e he => course.rule_eq he) e he hrule
        rw [hzero, Nat.zero_add]
        simp [hx]
  | @stopped h hs s t e first =>
    obtain ⟨old, valid⟩ := ready h List.mem_cons_self
    obtain ⟨es, q, hq, course, asks, -, -⟩ := first.of_mem valid old
    have hstopped : q = .error e := Hole.plugged_eq_error_iff.1 hq.symm
    refine ⟨es, asks, fun d hd => ⟨h, List.mem_cons_self, course.change_eq hd⟩, ?_, nofun⟩
    rw [← course.stopped_iff, hstopped]
    simp

/-- What plugging some holes adds to the record of the session: as much as it asks of the tools, or
nothing on a dry run, which nobody interrupts. -/
theorem PluggingEach.log_once {k : Toolkit} {hs : List Hole} {s t : Session}
    {r : Except Stop Unit} (h : PluggingEach k hs s t r) (nodup : hs.Nodup)
    (ready : ∀ h ∈ hs, h ∈ s.registry ∧ h.Valid) :
    ∃ es, t.exchanges = s.exchanges ++ es ∧
      (∀ e ∈ es, ∃ h ∈ hs, ∃ f, e.change = .inFilter f .delete h.rule) ∧
      ((∃ x, r = .error x) ↔ ∃ e ∈ es, e.answer.reply = .cut) ∧
      (r = .ok () → k.executor.dryRun = false → ∀ x : Hole,
        es.countP (fun e => e.change = .inFilter .primary .delete x.rule) =
          if x ∈ hs then 1 else 0) := by
  obtain ⟨es, asks, about, stopped, once⟩ := h.asks_once nodup ready
  cases dry : k.executor.dryRun with
  | false => exact ⟨es, asks.exchanges dry, about, stopped, fun hr _ => once hr⟩
  | true =>
    have hnone : k.processes es = [] := by simp [Toolkit.processes, Executor.started, dry]
    refine ⟨[], ?_, by simp, ?_, by simp⟩
    · rw [List.append_nil, Session.exchanges, asks.spawned, hnone, List.append_nil]
      rfl
    · rw [stopped]
      constructor
      · rintro ⟨e, he, hcut⟩
        rw [asks.answers.silent dry e he] at hcut
        cases hcut
      · rintro ⟨e, he, -⟩
        cases he

end Pinhole
