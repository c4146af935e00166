import Pinhole.Proofs.Service

/-!
# What a punch or a plug changes

A punch and a plug are about one hole. Which changes they ask for, and whether the hole is tracked
afterwards, is decided by the input, by what is tracked and known before, and by the replies of the
filters. Nothing else moves: every other hole stays tracked or untracked, even if the user
interrupts half-way. `transitions_exact` says all of this of every session.

An interrupt ends a plug at once, so the secondary filter is not asked to delete a rule if the user
interrupts the primary one (`interrupted_plug_asks_primary_only`).
-/

namespace Pinhole

/-! ## Courses by their replies -/

section Courses

variable {rule : Rule} {w w' : Bool} {es : List Exchange} {r : Except Stop Bool}

/-- Adding a rule asks for one, two or three changes. -/
theorem Accepting.changes (h : Accepting rule w es w' r) :
    es.map (·.change) = [.inFilter .primary .add rule] ∨
      es.map (·.change) = [.inFilter .primary .add rule, .inFilter .secondary .add rule] ∨
      es.map (·.change) = [.inFilter .primary .add rule, .inFilter .secondary .add rule,
        .inFilter .primary .delete rule] := by
  cases h with
  | refused ha | cutFirst ha => exact Or.inl rfl
  | both ha hb | tolerated ha hb | cutSecond ha hb => exact Or.inr (Or.inl rfl)
  | undone ha hb hc | cutUndo ha hb hc => exact Or.inr (Or.inr rfl)

/-- The secondary filter is offered a rule exactly when the primary one took it. -/
theorem Accepting.offers_iff (h : Accepting rule w es w' r) :
    (∃ e ∈ es, e.change = .inFilter .secondary .add rule) ↔
      Answered es (.inFilter .primary .add rule) .done := by
  cases h <;> simp_all [Answered]

/-- The primary filter is asked to give a rule back exactly when it took the rule and the secondary
one refused it though it has to work. -/
theorem Accepting.undoes_iff (h : Accepting rule w es w' r) :
    (∃ e ∈ es, e.change = .inFilter .primary .delete rule) ↔
      Answered es (.inFilter .primary .add rule) .done ∧
        Answered es (.inFilter .secondary .add rule) .refused ∧ w = true := by
  cases h <;> simp_all [Answered]

/-- A rule counts as added exactly when both filters took it, or the primary one took it and the
secondary one does not have to work. -/
theorem Accepting.eq_ok_true_iff (h : Accepting rule w es w' r) :
    r = .ok true ↔ Answered es (.inFilter .primary .add rule) .done ∧
      (Answered es (.inFilter .secondary .add rule) .done ∨
        Answered es (.inFilter .secondary .add rule) .refused ∧ w = false) := by
  cases h <;> simp_all [Answered]

/-- Adding a rule is stopped exactly when the user interrupts. -/
theorem Accepting.stopped_iff (h : Accepting rule w es w' r) :
    r = .error .interrupted ↔ ∃ e ∈ es, e.answer.reply = .cut := by
  cases h <;> simp_all

/-- Deleting a rule asks for one or two changes. -/
theorem Unaccepting.changes (h : Unaccepting rule w es r) :
    es.map (·.change) = [.inFilter .primary .delete rule] ∨
      es.map (·.change) =
        [.inFilter .primary .delete rule, .inFilter .secondary .delete rule] := by
  cases h with
  | cutFirst ha | primary ha => exact Or.inl rfl
  | cutSecond ha hb | both ha hb => exact Or.inr rfl

end Courses

/-! ## Attempts on one hole -/

/-- The outcome of an attempt, by whether the change was made; the message reports that it was not. -/
def attempted (message : String) : Except Stop Bool → Except Stop Outcome
  | .ok true => .ok .success
  | .ok false => .ok (.external message)
  | .error e => .error e

theorem Hole.punched_eq_attempted (h : Hole) (q : Except Stop Bool) :
    h.punched q = attempted ("Adding ACCEPT rules failed for " ++ h.describe) q := by
  match q with
  | .ok true | .ok false | .error e => rfl

theorem Hole.plugged_eq_attempted (h : Hole) (q : Except Stop Bool) :
    h.plugged q = attempted ("Deleting ACCEPT rules failed for " ++ h.describe) q := by
  match q with
  | .ok true | .ok false | .error e => rfl

section Attempted

variable {message : String} {q : Except Stop Bool}

/-- An attempt succeeds exactly when the change was made. -/
theorem attempted_isOk_iff : (∃ o, attempted message q = .ok o ∧ o.isOk = true) ↔ q = .ok true := by
  match q with
  | .ok true => simp [attempted, Outcome.isOk, Outcome.success]
  | .ok false => simp [attempted, Outcome.isOk, Outcome.external]
  | .error e => simp [attempted]

/-- Only what stops the change stops an attempt. -/
theorem attempted_eq_error_iff {e : Stop} : attempted message q = .error e ↔ q = .error e := by
  match q with
  | .ok true | .ok false => simp [attempted]
  | .error d => simp [attempted]

/-- An attempt ends with a success, with a failure of the tools, or with an interrupt. -/
theorem attempted_ends (stop : ∀ x, q = .error x → x = .interrupted) :
    (∃ o, attempted message q = .ok o ∧ (o.isOk = true ∨ o.kind = .external)) ∨
      attempted message q = .error .interrupted := by
  match q with
  | .ok true => exact Or.inl ⟨_, rfl, Or.inl rfl⟩
  | .ok false => exact Or.inl ⟨_, rfl, Or.inr rfl⟩
  | .error x =>
    obtain rfl := stop x rfl
    exact Or.inr rfl

end Attempted

/-- An attempt on a hole asked for some changes and moved nothing but that hole. -/
structure Attempted (k : Toolkit) (h : Hole) (s t : Session) (es : List Exchange)
    (r : Except Stop Outcome) : Prop where
  asks : k.Asks s es t
  ends : (∃ o, r = .ok o ∧ (o.isOk = true ∨ o.kind = .external)) ∨ r = .error .interrupted
  stopped : r = .error .interrupted ↔ ∃ e ∈ es, e.answer.reply = .cut
  others : ∀ g, g ≠ h → (g ∈ t.registry ↔ g ∈ s.registry)

/-- What an attempt to open a hole asks for and comes to, by the replies of the filters. -/
structure Opens (k : Toolkit) (h : Hole) (s t : Session) (es : List Exchange)
    (r : Except Stop Outcome) : Prop extends Attempted k h s t es r where
  changes : es.map (·.change) = [.inFilter .primary .add h.rule] ∨
    es.map (·.change) = [.inFilter .primary .add h.rule, .inFilter .secondary .add h.rule] ∨
    es.map (·.change) = [.inFilter .primary .add h.rule, .inFilter .secondary .add h.rule,
      .inFilter .primary .delete h.rule]
  offers : (∃ e ∈ es, e.change = .inFilter .secondary .add h.rule) ↔
    Answered es (.inFilter .primary .add h.rule) .done
  undoes : (∃ e ∈ es, e.change = .inFilter .primary .delete h.rule) ↔
    Answered es (.inFilter .primary .add h.rule) .done ∧
      Answered es (.inFilter .secondary .add h.rule) .refused ∧ s.ipv6 = true
  succeeds : (∃ o, r = .ok o ∧ o.isOk = true) ↔
    Answered es (.inFilter .primary .add h.rule) .done ∧
      (Answered es (.inFilter .secondary .add h.rule) .done ∨
        Answered es (.inFilter .secondary .add h.rule) .refused ∧ s.ipv6 = false)
  tracked : h ∈ t.registry ↔ ∃ o, r = .ok o ∧ o.isOk = true
  known : t.ipv6 = true ↔ s.ipv6 = true ∨ ∃ e ∈ es, e.TookSecondary

/-- What an attempt to close a hole asks for and comes to, by the replies of the filters. -/
structure Closes (k : Toolkit) (h : Hole) (s t : Session) (es : List Exchange)
    (r : Except Stop Outcome) : Prop extends Attempted k h s t es r where
  changes : es.map (·.change) = [.inFilter .primary .delete h.rule] ∨
    es.map (·.change) =
      [.inFilter .primary .delete h.rule, .inFilter .secondary .delete h.rule]
  both : (∃ e ∈ es, e.change = .inFilter .secondary .delete h.rule) ↔
    s.ipv6 = true ∧
      ∃ e ∈ es, e.change = .inFilter .primary .delete h.rule ∧ e.answer.reply ≠ .cut
  succeeds : (∃ o, r = .ok o ∧ o.isOk = true) ↔ ∀ e ∈ es, e.answer.reply = .done
  untracked : h ∉ t.registry ↔ ∀ e ∈ es, e.answer.reply = .done
  known : t.ipv6 = s.ipv6

section Attempts

variable {k : Toolkit} {h : Hole} {s t : Session} {es : List Exchange} {q : Except Stop Bool}

theorem Accepting.opens (course : Accepting h.rule s.ipv6 es t.ipv6 q) (new : h ∉ s.registry)
    (asks : k.Asks s es t) (tracked : t.registry = s.registry.opened h q) :
    Opens k h s t es (h.punched q) := by
  rw [Hole.punched_eq_attempted]
  exact {
    asks := asks
    ends := attempted_ends fun _ hq => (hq ▸ course).error_eq
    stopped := attempted_eq_error_iff.trans course.stopped_iff
    others g hg := by
      rw [tracked, Registry.mem_opened_iff]
      simp [hg]
    changes := course.changes
    offers := course.offers_iff
    undoes := course.undoes_iff
    succeeds := attempted_isOk_iff.trans course.eq_ok_true_iff
    tracked := by
      rw [tracked, Registry.mem_opened_iff, attempted_isOk_iff]
      simp [new]
    known := course.flag_iff rfl }

theorem Unaccepting.closes (course : Unaccepting h.rule s.ipv6 es q) (old : h ∈ s.registry)
    (asks : k.Asks s es t) (flag : t.ipv6 = s.ipv6)
    (tracked : t.registry = s.registry.closed h q) : Closes k h s t es (h.plugged q) := by
  rw [Hole.plugged_eq_attempted]
  exact {
    asks := asks
    ends := attempted_ends fun _ hq => (hq ▸ course).error_eq
    stopped := by
      rw [attempted_eq_error_iff, ← course.stopped_iff]
      refine ⟨fun hq => ⟨_, hq⟩, ?_⟩
      rintro ⟨x, rfl⟩
      rw [course.error_eq]
    others g hg := by
      rw [tracked, Registry.mem_closed_iff]
      simp [hg]
    changes := course.changes
    both := course.asks_secondary_iff
    succeeds := attempted_isOk_iff.trans course.eq_ok_true_iff
    untracked := by
      rw [tracked, Registry.mem_closed_iff, ← course.eq_ok_true_iff]
      simp [old]
    known := flag }

end Attempts

/-- Nothing was asked for, and nothing moved. -/
structure Idle (k : Toolkit) (s t : Session) : Prop where
  asks : k.Asks s [] t
  same : SameHoles s t

section Calls

variable {k : Toolkit} {protocol : Protocol} {port : Value} {interface : String} {s t : Session}
  {r : Except Stop Outcome} {h : Hole}

theorem Punching.idle_of_invalid (course : Punching k protocol port interface s t r)
    (invalid : (∃ e, Input.port port = .error e) ∨ Input.isInterface interface = false) :
    (∃ message, r = .ok (.validation message)) ∧ Idle k s t := by
  have wrong {g : Hole} (hport : Input.port port = .ok g.port) (hinterface : g.interface = interface)
      (valid : g.Valid) : False := by
    rcases invalid with ⟨e, he⟩ | malformed
    · rw [hport] at he
      cases he
    · have wellFormed := (Input.interface_eq_ok valid.interface).2
      rw [hinterface, malformed] at wellFormed
      cases wellFormed
  cases course with
  | badPort hport asks same => exact ⟨⟨_, rfl⟩, asks, same⟩
  | badInterface hport hinterface asks same => exact ⟨⟨_, rfl⟩, asks, same⟩
  | already hport hprotocol hinterface valid old asks same =>
    exact (wrong hport hinterface valid).elim
  | tried hport hprotocol hinterface valid new course asks tracked =>
    exact (wrong hport hinterface valid).elim

/-- A punch of valid input is about the hole that the input stands for. -/
theorem Punching.of_valid (course : Punching k protocol port interface s t r)
    (given : h.GivenBy protocol port interface) (wellFormed : Input.isInterface interface = true) :
    (h ∈ s.registry → r = .ok (.success "already open") ∧ Idle k s t) ∧
      (h ∉ s.registry → ∃ es, Opens k h s t es r) := by
  cases course with
  | badPort hport asks same =>
    rw [given.port] at hport
    cases hport
  | badInterface hport hinterface asks same =>
    simp [Input.interface, wellFormed] at hinterface
  | already hport hprotocol hinterface valid old asks same =>
    obtain rfl := Hole.GivenBy.unique ⟨hprotocol, hport, hinterface⟩ given
    exact ⟨fun _ => ⟨rfl, asks, same⟩, fun new => absurd old new⟩
  | tried hport hprotocol hinterface valid new course asks tracked =>
    obtain rfl := Hole.GivenBy.unique ⟨hprotocol, hport, hinterface⟩ given
    exact ⟨fun old => absurd old new, fun _ => ⟨_, course.opens new asks tracked⟩⟩

theorem Plugging.idle_of_invalid (course : Plugging k protocol port interface s t r)
    (invalid : ∃ e, Input.port port = .error e) :
    (∃ message, r = .ok (.validation message)) ∧ Idle k s t := by
  obtain ⟨e, he⟩ := invalid
  cases course with
  | badPort hport asks same => exact ⟨⟨_, rfl⟩, asks, same⟩
  | unknown hport hprotocol hinterface new asks same =>
    rw [hport] at he
    cases he
  | tried hport hprotocol hinterface old course asks flag tracked =>
    rw [hport] at he
    cases he

/-- A plug with a valid port is about the hole that the input stands for. -/
theorem Plugging.of_valid (course : Plugging k protocol port interface s t r)
    (given : h.GivenBy protocol port interface) :
    (h ∉ s.registry → (∃ message, r = .ok (.state message)) ∧ Idle k s t) ∧
      (h ∈ s.registry → ∃ es, Closes k h s t es r) := by
  cases course with
  | badPort hport asks same =>
    rw [given.port] at hport
    cases hport
  | unknown hport hprotocol hinterface new asks same =>
    obtain rfl := Hole.GivenBy.unique ⟨hprotocol, hport, hinterface⟩ given
    exact ⟨fun _ => ⟨⟨_, rfl⟩, asks, same⟩, fun old => absurd old new⟩
  | tried hport hprotocol hinterface old course asks flag tracked =>
    obtain rfl := Hole.GivenBy.unique ⟨hprotocol, hport, hinterface⟩ given
    exact ⟨fun new => absurd old new, fun _ => ⟨_, course.closes old asks flag tracked⟩⟩

end Calls

/-- What becomes of a punch and of a plug in any session, whatever the port is and whatever the
filters reply. Input that is refused asks for nothing and moves nothing. A hole that is open already
is not opened again, and one that is not open is not closed; both ask for nothing and move nothing
either. All else is `Opens` and `Closes`: the changes that are asked for, what the result is, and
that only the hole itself may become tracked or untracked. -/
theorem transitions_exact (k : Toolkit) (protocol : Protocol) (port : Value) (interface : String)
    (s : Session) :
    let punched := (k.punch protocol port interface).on s
    let plugged := (k.plug protocol port interface).on s
    ((∃ e, Input.port port = .error e) ∨ Input.isInterface interface = false →
      (∃ message, punched.1 = .ok (.validation message)) ∧ Idle k s punched.2) ∧
    (∀ h : Hole, h.GivenBy protocol port interface → Input.isInterface interface = true →
      (h ∈ s.registry → punched.1 = .ok (.success "already open") ∧ Idle k s punched.2) ∧
      (h ∉ s.registry → ∃ es, Opens k h s punched.2 es punched.1)) ∧
    ((∃ e, Input.port port = .error e) →
      (∃ message, plugged.1 = .ok (.validation message)) ∧ Idle k s plugged.2) ∧
    ∀ h : Hole, h.GivenBy protocol port interface →
      (h ∉ s.registry →
        (∃ message, plugged.1 = .ok (.state message)) ∧ Idle k s plugged.2) ∧
      (h ∈ s.registry → ∃ es, Closes k h s plugged.2 es plugged.1) := by
  obtain ⟨r, t, ht, punching⟩ := k.on_punch protocol port interface s
  obtain ⟨q, u, hu, plugging⟩ := k.on_plug protocol port interface s
  rw [ht, hu]
  exact ⟨punching.idle_of_invalid, fun h given wellFormed => punching.of_valid given wellFormed,
    plugging.idle_of_invalid, fun h given => plugging.of_valid given⟩

/-- A plug that the user interrupts in the primary filter asks nothing of the secondary one, though
that has to work. -/
theorem interrupted_plug_asks_primary_only :
    let k := Toolkit.scripted [.silent, .silent, .interrupted]
    let s := k.serve [.punch .udp (.int 53) "tun0"] { ipv6 := true }
    let c := (k.plug .udp (.int 53) "tun0").on s
    s.ipv6 = true ∧ ⟨.udp, 53, "tun0"⟩ ∈ s.registry ∧ c.1 = .error .interrupted ∧
      c.2.exchanges.map (·.change) =
        s.exchanges.map (·.change) ++ [.inFilter .primary .delete (.accept .udp 53 "tun0")] ∧
      ⟨.udp, 53, "tun0"⟩ ∈ c.2.registry :=
  ⟨rfl, by decide +kernel, rfl, by decide +kernel, by decide +kernel⟩

end Pinhole
