import Pinhole.Firewall.Holes
import Pinhole.Proofs.Accept

/-!
# What becomes of a hole

Punching and plugging come to one of a few things each: the input or the tracked holes speak
against it and nothing is asked of the tools, or the rule of the hole is added or deleted. `Punching`
and `Plugging` list these, with the outcome that is reported and with what is tracked afterwards.
-/

namespace Pinhole

namespace Hole

/-- The outcome of a punch, by what became of the rule. -/
def punched (h : Hole) : Except Stop Bool → Except Stop Outcome
  | .ok true => .ok .success
  | .ok false => .ok (.external ("Adding ACCEPT rules failed for " ++ h.describe))
  | .error e => .error e

/-- The outcome of a plug, by what became of the rule. -/
def plugged (h : Hole) : Except Stop Bool → Except Stop Outcome
  | .ok true => .ok .success
  | .ok false => .ok (.external ("Deleting ACCEPT rules failed for " ++ h.describe))
  | .error e => .error e

/-- A punch succeeds exactly when the rule was added. -/
theorem punched_isOk_iff {h : Hole} {r : Except Stop Bool} :
    (∃ o, h.punched r = .ok o ∧ o.isOk = true) ↔ r = .ok true := by
  match r with
  | .ok true => simp [punched, Outcome.isOk, Outcome.success]
  | .ok false => simp [punched, Outcome.isOk, Outcome.external]
  | .error e => simp [punched]

/-- Only what stops the deleting of the rule stops a plug. -/
theorem plugged_eq_error_iff {h : Hole} {r : Except Stop Bool} {e : Stop} :
    h.plugged r = .error e ↔ r = .error e := by
  match r with
  | .ok true | .ok false => simp [plugged]
  | .error d => simp [plugged]

/-- A hole that may be punched. -/
structure Valid (h : Hole) : Prop where
  port : Input.port (.int h.port) = .ok h.port
  interface : Input.interface true h.interface = .ok h.interface

/-- The hole that a port, a protocol and an interface stand for. -/
theorem eq_of_port {g h : Hole} (hport : Input.port (.int h.port) = .ok g.port)
    (hprotocol : g.protocol = h.protocol) (hinterface : g.interface = h.interface) : g = h := by
  have hn : Value.int h.port = .int g.port := ((Input.port_eq_ok_iff _ _).1 hport).1
  obtain ⟨p, n, i⟩ := g
  obtain ⟨q, m, j⟩ := h
  simp_all

/-- A protocol, a port and an interface stand for a hole. -/
structure GivenBy (h : Hole) (protocol : Protocol) (port : Value) (interface : String) : Prop where
  protocol : h.protocol = protocol
  port : Input.port port = .ok h.port
  interface : h.interface = interface

/-- They stand for one hole only. -/
theorem GivenBy.unique {g h : Hole} {protocol : Protocol} {port : Value} {interface : String}
    (hg : g.GivenBy protocol port interface) (hh : h.GivenBy protocol port interface) : g = h := by
  have hport : g.port = h.port := Except.ok.inj (hg.port.symm.trans hh.port)
  have hprotocol : g.protocol = h.protocol := hg.protocol.trans hh.protocol.symm
  have hinterface : g.interface = h.interface := hg.interface.trans hh.interface.symm
  obtain ⟨p, n, i⟩ := g
  obtain ⟨q, m, j⟩ := h
  simp_all

/-- A rule that opens a hole is the rule of one. -/
theorem exists_rule_eq {r : Rule} (h : r.isAccept = true) : ∃ x : Hole, x.rule = r := by
  cases r with
  | accept protocol port interface => exact ⟨⟨protocol, port, interface⟩, rfl⟩
  | _ => cases h

/-- A rule that opens no hole is not the rule of a hole. -/
theorem ne_rule {r : Rule} (h : r.isAccept = false) (x : Hole) : r ≠ x.rule := by
  rintro rfl
  cases h

/-- Different holes have different rules. -/
theorem rule_injective {g h : Hole} (e : g.rule = h.rule) : g = h := by
  obtain ⟨p, n, i⟩ := g
  obtain ⟨q, m, j⟩ := h
  simpa [rule] using e

/-- Exchanges about the rule of one hole are not about the rule of another. -/
theorem rule_ne_of_about {g h : Hole} {es : List Exchange} (hne : g ≠ h)
    (about : ∀ e ∈ es, e.change.rule = h.rule) : ∀ e ∈ es, e.change.rule ≠ g.rule := by
  intro e he eq
  exact hne (rule_injective (eq.symm.trans (about e he)))

end Hole

namespace Registry

/-- What is tracked after the rule of a hole was to be added. -/
def opened (g : Registry) (h : Hole) : Except Stop Bool → Registry
  | .ok true => g.insert h
  | _ => g

/-- What is tracked after the rule of a hole was to be deleted. -/
def closed (g : Registry) (h : Hole) : Except Stop Bool → Registry
  | .ok true => g.erase h
  | _ => g

/-- Opening tracks one more hole at most. -/
theorem mem_opened_iff {g : Registry} {h x : Hole} {r : Except Stop Bool} :
    x ∈ g.opened h r ↔ x ∈ g ∨ x = h ∧ r = .ok true := by
  match r with
  | .ok true => simp [opened, mem_insert_iff, or_comm]
  | .ok false | .error e => simp [opened]

/-- Closing stops tracking one hole at most. -/
theorem mem_closed_iff {g : Registry} {h x : Hole} {r : Except Stop Bool} :
    x ∈ g.closed h r ↔ x ∈ g ∧ (x = h → r ≠ .ok true) := by
  match r with
  | .ok true => simp [closed, mem_erase_iff]
  | .ok false | .error e => simp [closed]

end Registry

/-- What punching a hole comes to. -/
inductive Punching (k : Toolkit) (protocol : Protocol) (port : Value) (interface : String)
    (s t : Session) : Except Stop Outcome → Prop
  | badPort {e : Input.PortFault} (hport : Input.port port = .error e) (asks : k.Asks s [] t)
    (same : SameHoles s t) :
    Punching k protocol port interface s t (.ok (.validation e.failure.message))
  | badInterface {n : Int} {e : Input.InterfaceFault} (hport : Input.port port = .ok n)
    (hinterface : Input.interface true interface = .error e) (asks : k.Asks s [] t)
    (same : SameHoles s t) :
    Punching k protocol port interface s t (.ok (.validation e.failure.message))
  | already {h : Hole} (hport : Input.port port = .ok h.port) (hprotocol : h.protocol = protocol)
    (hinterface : h.interface = interface) (valid : h.Valid) (old : h ∈ s.registry)
    (asks : k.Asks s [] t) (same : SameHoles s t) :
    Punching k protocol port interface s t (.ok (.success "already open"))
  | tried {h : Hole} {es : List Exchange} {r : Except Stop Bool}
    (hport : Input.port port = .ok h.port) (hprotocol : h.protocol = protocol)
    (hinterface : h.interface = interface) (valid : h.Valid) (new : h ∉ s.registry)
    (course : Accepting h.rule s.ipv6 es t.ipv6 r) (asks : k.Asks s es t)
    (tracked : t.registry = s.registry.opened h r) :
    Punching k protocol port interface s t (h.punched r)

/-- What plugging a hole comes to. -/
inductive Plugging (k : Toolkit) (protocol : Protocol) (port : Value) (interface : String)
    (s t : Session) : Except Stop Outcome → Prop
  | badPort {e : Input.PortFault} (hport : Input.port port = .error e) (asks : k.Asks s [] t)
    (same : SameHoles s t) :
    Plugging k protocol port interface s t (.ok (.validation e.failure.message))
  | unknown {h : Hole} (hport : Input.port port = .ok h.port) (hprotocol : h.protocol = protocol)
    (hinterface : h.interface = interface) (new : h ∉ s.registry) (asks : k.Asks s [] t)
    (same : SameHoles s t) :
    Plugging k protocol port interface s t (.ok (.state ("No open hole for " ++ h.describe)))
  | tried {h : Hole} {es : List Exchange} {r : Except Stop Bool}
    (hport : Input.port port = .ok h.port) (hprotocol : h.protocol = protocol)
    (hinterface : h.interface = interface) (old : h ∈ s.registry)
    (course : Unaccepting h.rule s.ipv6 es r) (asks : k.Asks s es t) (flag : t.ipv6 = s.ipv6)
    (tracked : t.registry = s.registry.closed h r) :
    Plugging k protocol port interface s t (h.plugged r)

section Tracked

variable {k : Toolkit} {h : Hole} {s t : Session} {r : Except Stop Outcome}

/-- Plugging a hole by its own values is about that hole. -/
theorem Plugging.log (live : k.executor.dryRun = false)
    (course : Plugging k h.protocol (.int h.port) h.interface s t r) :
    ∃ es, t.exchanges = s.exchanges ++ es ∧ t.ipv6 = s.ipv6 ∧
      ∀ e ∈ es, ∃ f, e.change = .inFilter f .delete h.rule := by
  cases course with
  | badPort hport asks same => exact ⟨[], asks.exchanges live, same.ipv6, by simp⟩
  | unknown hport hprotocol hinterface new asks same =>
    exact ⟨[], asks.exchanges live, same.ipv6, by simp⟩
  | @tried g es r hport hprotocol hinterface old course asks flag tracked =>
    have hg : g = h := Hole.eq_of_port hport hprotocol hinterface
    exact ⟨es, asks.exchanges live, flag, fun e he => hg ▸ course.change_eq he⟩

/-- Only an interrupt stops a punch. -/
theorem Punching.error_eq {protocol : Protocol} {port : Value} {interface : String} {x : Stop}
    (course : Punching k protocol port interface s t (.error x)) : x = .interrupted := by
  generalize hr : (Except.error x : Except Stop Outcome) = r at course
  cases course with
  | badPort hport asks same => cases hr
  | badInterface hport hinterface asks same => cases hr
  | already hport hprotocol hinterface valid old asks same => cases hr
  | @tried h es q hport hprotocol hinterface valid new course asks tracked =>
    match q with
    | .ok true => cases hr
    | .ok false => cases hr
    | .error e =>
      cases hr
      exact course.error_eq

/-- A punch that fails has a validation problem or a failure of the tools to report. -/
theorem Punching.kind {protocol : Protocol} {port : Value} {interface : String} {o : Outcome}
    (course : Punching k protocol port interface s t (.ok o)) (failed : o.isOk = false) :
    o.kind = .validation ∨ o.kind = .external := by
  generalize hr : (Except.ok o : Except Stop Outcome) = r at course
  cases course with
  | badPort hport asks same =>
    cases hr
    exact Or.inl rfl
  | badInterface hport hinterface asks same =>
    cases hr
    exact Or.inl rfl
  | already hport hprotocol hinterface valid old asks same =>
    cases hr
    cases failed
  | @tried h es q hport hprotocol hinterface valid new course asks tracked =>
    match q with
    | .ok true =>
      cases hr
      cases failed
    | .ok false =>
      cases hr
      exact Or.inr rfl
    | .error e => cases hr

/-- Only an interrupt stops a plug. -/
theorem Plugging.error_eq {protocol : Protocol} {port : Value} {interface : String} {x : Stop}
    (course : Plugging k protocol port interface s t (.error x)) : x = .interrupted := by
  generalize hr : (Except.error x : Except Stop Outcome) = r at course
  cases course with
  | badPort hport asks same => cases hr
  | unknown hport hprotocol hinterface new asks same => cases hr
  | @tried g es q hport hprotocol hinterface old course asks flag tracked =>
    match q with
    | .ok true => cases hr
    | .ok false => cases hr
    | .error e =>
      cases hr
      exact course.error_eq

/-- Plugging a tracked hole deletes its rule. -/
theorem Plugging.of_mem (valid : h.Valid) (old : h ∈ s.registry)
    (course : Plugging k h.protocol (.int h.port) h.interface s t r) :
    ∃ es q, r = h.plugged q ∧ Unaccepting h.rule s.ipv6 es q ∧ k.Asks s es t ∧
      t.ipv6 = s.ipv6 ∧ t.registry = s.registry.closed h q := by
  cases course with
  | badPort hport asks same =>
    rw [valid.port] at hport
    cases hport
  | unknown hport hprotocol hinterface new asks same =>
    exact absurd old (Hole.eq_of_port hport hprotocol hinterface ▸ new)
  | @tried g es q hport hprotocol hinterface old course asks flag tracked =>
    obtain rfl : g = h := Hole.eq_of_port hport hprotocol hinterface
    exact ⟨es, q, rfl, course, asks, flag, tracked⟩

/-- Plugging a hole that is not tracked asks nothing. -/
theorem Plugging.of_not_mem (new : h ∉ s.registry)
    (course : Plugging k h.protocol (.int h.port) h.interface s t r) :
    (∃ o, r = .ok o) ∧ k.Asks s [] t ∧ SameHoles s t := by
  cases course with
  | badPort hport asks same => exact ⟨⟨_, rfl⟩, asks, same⟩
  | unknown hport hprotocol hinterface new asks same => exact ⟨⟨_, rfl⟩, asks, same⟩
  | tried hport hprotocol hinterface old course asks flag tracked =>
    exact absurd old (Hole.eq_of_port hport hprotocol hinterface ▸ new)

end Tracked

namespace Toolkit

variable (k : Toolkit)

/-- Refusing input is no exchange. -/
theorem on_refuse (f : Failure) (s : Session) :
    ∃ t, (k.refuse f).on s = (.ok (.validation f.message), t) ∧ k.Asks s [] t ∧
      SameHoles s t := by
  obtain ⟨t, ht, asks, same⟩ := k.on_say .error f.message s
  refine ⟨t, ?_, asks, same⟩
  rw [refuse, Action.on_bind, ht]
  rfl

/-- Opening a hole tracks it exactly when its rule was added. -/
theorem on_openUp (h : Hole) (s : Session) :
    ∃ es r t, (k.openUp h).on s = (h.punched r, t) ∧ Accepting h.rule s.ipv6 es t.ipv6 r ∧
      k.Asks s es t ∧ t.registry = s.registry.opened h r := by
  obtain ⟨t, ht, asks, same⟩ := k.on_say .step ("Punching hole for " ++ h.describe) s
  obtain ⟨es, r, u, hu, course, asks', tracked⟩ := k.on_accept h.rule t
  have asks_su : k.Asks s es u := asks.trans asks'
  have tracked_su : u.registry = s.registry := tracked.trans same.registry
  rw [same.ipv6] at course
  simp only [openUp, Action.on_bind, ht, hu]
  match r with
  | .error e => exact ⟨es, .error e, u, rfl, course, asks_su, tracked_su⟩
  | .ok true =>
    refine ⟨es, .ok true, { u with registry := u.registry.insert h }, rfl, course,
      ⟨asks_su.spawned, asks_su.answers⟩, ?_⟩
    rw [tracked_su]
    rfl
  | .ok false =>
    obtain ⟨v, hv, asks'', same'⟩ := k.on_say .error "Adding ACCEPT rules failed" u
    have tracked_sv : v.registry = s.registry := same'.registry.trans tracked_su
    refine ⟨es, .ok false, v, ?_, same'.ipv6.symm ▸ course, asks_su.trans_nil asks'', tracked_sv⟩
    simp only [Bool.false_eq_true, if_false, Action.on_bind, hv]
    rfl

/-- Closing a hole tracks it no longer exactly when its rule was deleted. -/
theorem on_closeDown (h : Hole) (s : Session) :
    ∃ es r t, (k.closeDown h).on s = (h.plugged r, t) ∧ Unaccepting h.rule s.ipv6 es r ∧
      k.Asks s es t ∧ t.ipv6 = s.ipv6 ∧ t.registry = s.registry.closed h r := by
  obtain ⟨t, ht, asks, same⟩ := k.on_say .step ("Plugging hole for " ++ h.describe) s
  obtain ⟨es, r, u, hu, course, asks', same'⟩ := k.on_unaccept h.rule t
  have asks_su : k.Asks s es u := asks.trans asks'
  have same_su : SameHoles s u := same.trans same'
  rw [same.ipv6] at course
  simp only [closeDown, Action.on_bind, ht, hu]
  match r with
  | .error e => exact ⟨es, .error e, u, rfl, course, asks_su, same_su.ipv6, same_su.registry⟩
  | .ok true =>
    refine ⟨es, .ok true, { u with registry := u.registry.erase h }, rfl, course,
      ⟨asks_su.spawned, asks_su.answers⟩, same_su.ipv6, ?_⟩
    rw [same_su.registry]
    rfl
  | .ok false =>
    obtain ⟨v, hv, asks'', same''⟩ := k.on_say .error "Deleting ACCEPT rules failed" u
    have same_sv : SameHoles s v := same_su.trans same''
    refine ⟨es, .ok false, v, ?_, course, asks_su.trans_nil asks'', same_sv.ipv6,
      same_sv.registry⟩
    simp only [Bool.false_eq_true, if_false, Action.on_bind, hv]
    rfl

/-- Punching comes to one of the things of `Punching`. -/
theorem on_punch (protocol : Protocol) (port : Value) (interface : String) (s : Session) :
    ∃ r t, (k.punch protocol port interface).on s = (r, t) ∧
      Punching k protocol port interface s t r := by
  unfold punch
  split
  · rename_i e hport
    obtain ⟨t, ht, asks, same⟩ := k.on_refuse e.failure s
    exact ⟨_, t, ht, .badPort hport asks same⟩
  · rename_i n hport
    split
    · rename_i e hinterface
      obtain ⟨t, ht, asks, same⟩ := k.on_refuse e.failure s
      exact ⟨_, t, ht, .badInterface hport hinterface asks same⟩
    · rename_i i hinterface
      have hn : port = .int n := ((Input.port_eq_ok_iff port n).1 hport).1
      have hi : interface = i := (Input.interface_eq_ok hinterface).1.symm
      have valid : Hole.Valid ⟨protocol, n, i⟩ := ⟨hn ▸ hport, hi ▸ hinterface⟩
      simp only [Action.on_bind, Action.on_get]
      by_cases old : ⟨protocol, n, i⟩ ∈ s.registry
      · obtain ⟨t, ht, asks, same⟩ :=
          k.on_say .debug ("Hole already open: " ++ Hole.describe ⟨protocol, n, i⟩) s
        refine ⟨_, t, ?_, .already hport rfl hi.symm valid old asks same⟩
        rw [if_pos old, Action.on_bind, ht]
        rfl
      · obtain ⟨es, r, t, ht, course, asks, tracked⟩ := k.on_openUp ⟨protocol, n, i⟩ s
        refine ⟨_, t, ?_, .tried hport rfl hi.symm valid old course asks tracked⟩
        rw [if_neg old]
        exact ht

/-- Plugging comes to one of the things of `Plugging`. -/
theorem on_plug (protocol : Protocol) (port : Value) (interface : String) (s : Session) :
    ∃ r t, (k.plug protocol port interface).on s = (r, t) ∧
      Plugging k protocol port interface s t r := by
  unfold plug
  split
  · rename_i e hport
    obtain ⟨t, ht, asks, same⟩ := k.on_refuse e.failure s
    exact ⟨_, t, ht, .badPort hport asks same⟩
  · rename_i n hport
    simp only [Action.on_bind, Action.on_get]
    by_cases old : ⟨protocol, n, interface⟩ ∈ s.registry
    · obtain ⟨es, r, t, ht, course, asks, flag, tracked⟩ :=
        k.on_closeDown ⟨protocol, n, interface⟩ s
      refine ⟨_, t, ?_, .tried hport rfl rfl old course asks flag tracked⟩
      rw [if_pos old]
      exact ht
    · obtain ⟨t, ht, asks, same⟩ :=
        k.on_say .error ("No open hole for " ++ Hole.describe ⟨protocol, n, interface⟩) s
      refine ⟨_, t, ?_, .unknown hport rfl rfl old asks same⟩
      rw [if_neg old, Action.on_bind, ht]
      rfl

end Toolkit

end Pinhole
