import Mathlib.Algebra.Order.Group.Multiset
import Pinhole.Proofs.Service

/-!
# Holes are opened independently

While the secondary filter is only tolerated, the order of requests matters: the first rule that
this filter takes decides what becomes of those that it refuses later. Once the filter has to work,
and if the status of a command is a function of its words, whether a hole can be opened is a matter
of that hole alone. Requests may then come in any order (`punches_independent`).

The proof follows a `Tally` of what is tracked, what was asked for and how many requests succeeded.
Opening two holes leads to the same tally in either order, so any permutation of requests does.
-/

namespace Pinhole

/-! ## Registries -/

namespace Registry

/-- A registry is decided by what it tracks. -/
theorem eq_of_mem_iff {g g' : Registry} (same : ∀ h : Hole, h ∈ g ↔ h ∈ g') : g = g' := by
  have perm : g.holes.Perm g'.holes := (List.perm_ext_iff_of_nodup g.nodup g'.nodup).2 same
  have equal : g.holes = g'.holes := by
    refine perm.eq_of_pairwise (fun a b _ _ hab hba => ?_) g.sorted g'.sorted
    exact absurd (Hole.before_trans hab hba) (Hole.before_irrefl a)
  cases g
  cases g'
  cases equal
  rfl

/-- Tracking a hole that is tracked already changes nothing. -/
theorem insert_of_mem {g : Registry} {h : Hole} (old : h ∈ g) : g.insert h = g := by
  apply eq_of_mem_iff
  intro x
  rw [mem_insert_iff]
  exact ⟨fun hx => hx.elim (fun e => e ▸ old) id, Or.inr⟩

/-- Holes may be tracked in any order. -/
theorem insert_comm (g : Registry) (a b : Hole) :
    (g.insert a).insert b = (g.insert b).insert a := by
  apply eq_of_mem_iff
  intro x
  simp only [mem_insert_iff]
  exact or_left_comm

end Registry

/-! ## Requests -/

/-- A request to punch a hole, of which nothing is known. -/
structure PunchRequest where
  protocol : Protocol
  port : Value
  interface : String

/-- The hole that a request is about, if the request is well formed. -/
def PunchRequest.hole? (r : PunchRequest) : Option Hole :=
  match Input.port r.port, Input.interface true r.interface with
  | .ok n, .ok i => some ⟨r.protocol, n, i⟩
  | _, _ => none

/-- Punches what is requested, one after the other and whatever becomes of each. -/
def Toolkit.punchEach (k : Toolkit) : List PunchRequest → Action (List Outcome)
  | [] => return []
  | r :: rest => do
    let o ← k.punch r.protocol r.port r.interface
    return o :: (← k.punchEach rest)

/-! ## Systems whose answers depend on the words alone -/

/-- The status that a change is reported with where the status of a command is a function of its
words. A dry run reports success. -/
def Toolkit.reportedStatus (k : Toolkit) (status : List String → Int) (c : Change) : Int :=
  if k.executor.dryRun then 0
  else status (k.executor.argv (k.command c) (some netfilterCapabilities))

/-- Whether a change is made, by the status that it is reported with. -/
def Toolkit.works (k : Toolkit) (status : List String → Int) (c : Change) : Bool :=
  k.reportedStatus status c == 0

namespace Hole

/-- Whether both filters take the rule of a hole. -/
def opens (works : Change → Bool) (h : Hole) : Bool :=
  works (.inFilter .primary .add h.rule) && works (.inFilter .secondary .add h.rule)

/-- The changes that are asked for to open a hole where both filters have to take its rule. -/
def changesToOpen (works : Change → Bool) (h : Hole) : List Change :=
  if works (.inFilter .primary .add h.rule) then
    if works (.inFilter .secondary .add h.rule) then
      [.inFilter .primary .add h.rule, .inFilter .secondary .add h.rule]
    else
      [.inFilter .primary .add h.rule, .inFilter .secondary .add h.rule,
        .inFilter .primary .delete h.rule]
  else [.inFilter .primary .add h.rule]

end Hole

section Steady

variable {k : Toolkit} {status : List String → Int}
  (steady : ∀ ps argv, Executor.statusOf (k.executor.respond ps argv) = .ok (status argv))

include steady

/-- What a change is answered depends on the change alone, and nobody interrupts. -/
theorem Toolkit.reply_of_steady (ps : List Spawned) (c : Change) :
    (k.answer ps c).reply = if k.works status c then .done else .refused := by
  have reported : Executor.statusOf (k.answer ps c) = .ok (k.reportedStatus status c) := by
    unfold answer Executor.answer reportedStatus
    split
    · rfl
    · exact steady _ _
  have result : (k.answer ps c).reply.result = .ok (k.works status c) := by
    rw [← Executor.statusOf_eq, reported]
    rfl
  revert result
  cases (k.answer ps c).reply with
  | done =>
    intro result
    rw [← Except.ok.inj result]
    rfl
  | refused =>
    intro result
    rw [← Except.ok.inj result]
    rfl
  | cut => exact nofun

/-- All of some exchanges are answered by their changes. -/
theorem Toolkit.Answers.of_steady {ps : List Spawned} {es : List Exchange}
    (answers : k.Answers ps es) :
    ∀ e ∈ es, e.answer.reply = if k.works status e.change then .done else .refused := by
  induction es generalizing ps with
  | nil => exact fun e he => absurd he List.not_mem_nil
  | cons e es ih =>
    obtain ⟨first, rest⟩ := answers
    refine List.forall_mem_cons.2 ⟨?_, ih rest⟩
    rw [first]
    exact reply_of_steady steady ps e.change

end Steady

/-- Where the secondary filter has to work, the course of opening a hole is decided by what the
filters say to its rule. -/
theorem Accepting.of_works {works : Change → Bool} {h : Hole} {w : Bool} {es : List Exchange}
    {r : Except Stop Bool} (course : Accepting h.rule true es w r)
    (replies : ∀ e ∈ es, e.answer.reply = if works e.change then .done else .refused) :
    es.map (·.change) = h.changesToOpen works ∧ r = .ok (h.opens works) ∧ w = true := by
  have uncut : ∀ e ∈ es, e.answer.reply ≠ .cut := by
    intro e he
    rw [replies e he]
    split <;> exact nofun
  cases course <;> simp_all [Hole.changesToOpen, Hole.opens]

/-! ## Tallies -/

/-- What some requests come to, up to the order of the changes that they ask for. -/
@[ext]
structure Tally where
  tracked : Registry
  asked : Multiset Change := 0
  succeeded : Nat := 0

namespace Tally

variable (works : Change → Bool)

/-- The tally after one more request for a hole. -/
def openUp (a : Tally) (h : Hole) : Tally where
  tracked := if h.opens works then a.tracked.insert h else a.tracked
  asked := a.asked + if h ∈ a.tracked then 0 else (h.changesToOpen works : Multiset Change)
  succeeded := a.succeeded + if h ∈ a.tracked ∨ h.opens works = true then 1 else 0

/-- The tally after some requests. Those that are not well formed do not count. -/
def punchEach (a : Tally) (requests : List PunchRequest) : Tally :=
  (requests.filterMap PunchRequest.hole?).foldl (openUp works) a

theorem mem_tracked_openUp {a : Tally} {g h : Hole} :
    h ∈ (a.openUp works g).tracked ↔ h ∈ a.tracked ∨ h = g ∧ g.opens works = true := by
  unfold openUp
  cases g.opens works with
  | true => simp [Registry.mem_insert_iff, or_comm]
  | false => simp

/-- Two holes may be opened in either order: neither has a say in what becomes of the other. -/
theorem openUp_comm (a : Tally) (g h : Hole) :
    (a.openUp works g).openUp works h = (a.openUp works h).openUp works g := by
  by_cases same : g = h
  · rw [same]
  have hg : g ∈ (a.openUp works h).tracked ↔ g ∈ a.tracked := by
    rw [mem_tracked_openUp]
    exact or_iff_left fun e => same e.1
  have hh : h ∈ (a.openUp works g).tracked ↔ h ∈ a.tracked := by
    rw [mem_tracked_openUp]
    exact or_iff_left fun e => same e.1.symm
  apply Tally.ext
  · show (if h.opens works then (a.openUp works g).tracked.insert h
      else (a.openUp works g).tracked) = if g.opens works then (a.openUp works h).tracked.insert g
      else (a.openUp works h).tracked
    unfold openUp
    cases g.opens works <;> cases h.opens works <;> simp [Registry.insert_comm]
  · show (a.openUp works g).asked + _ = (a.openUp works h).asked + _
    simp only [hg, hh]
    exact add_right_comm _ _ _
  · show (a.openUp works g).succeeded + _ = (a.openUp works h).succeeded + _
    simp only [hg, hh]
    exact add_right_comm _ _ _

/-- Requests lead to the same tally in any order. -/
theorem punchEach_perm {requests requests' : List PunchRequest} (perm : requests.Perm requests')
    (a : Tally) : a.punchEach works requests = a.punchEach works requests' := by
  have holes := perm.filterMap PunchRequest.hole?
  exact holes.foldl_eq' (fun g _ h _ b => openUp_comm works b g h) a

/-- Of the requested holes exactly those are tracked whose rules both filters take. -/
theorem mem_tracked_punchEach {requests : List PunchRequest} {a : Tally} {h : Hole} :
    h ∈ (a.punchEach works requests).tracked ↔
      h ∈ a.tracked ∨ (∃ r ∈ requests, r.hole? = some h) ∧ h.opens works = true := by
  have run : ∀ hs : List Hole, h ∈ (hs.foldl (openUp works) a).tracked ↔
      h ∈ a.tracked ∨ h ∈ hs ∧ h.opens works = true := by
    intro hs
    induction hs generalizing a with
    | nil => simp
    | cons g hs ih =>
      rw [List.foldl_cons, ih, mem_tracked_openUp, List.mem_cons, or_assoc, or_and_right]
      refine or_congr_right (or_congr_left (and_congr_right ?_))
      rintro rfl
      rfl
  rw [punchEach, run, List.mem_filterMap]

end Tally

/-! ## What requests come to -/

section Run

variable {k : Toolkit} {status : List String → Int} {s : Session}

/-- One request asks for what the tally says, and comes to what the tally says. -/
theorem Toolkit.on_punch_of_steady
    (steady : ∀ ps argv, Executor.statusOf (k.executor.respond ps argv) = .ok (status argv))
    (required : s.ipv6 = true) (r : PunchRequest) :
    ∃ o t es, (k.punch r.protocol r.port r.interface).on s = (.ok o, t) ∧ k.Asks s es t ∧
      t.ipv6 = true ∧ ∀ m n, (⟨s.registry, m, n⟩ : Tally).punchEach (k.works status) [r] =
        ⟨t.registry, m + es.map (·.change), n + [o].countP (·.isOk)⟩ := by
  obtain ⟨q, t, ht, course⟩ := k.on_punch r.protocol r.port r.interface s
  cases course with
  | @badPort e hport asks same =>
    have none : r.hole? = none := by simp [PunchRequest.hole?, hport]
    refine ⟨_, t, [], ht, asks, same.ipv6.trans required, fun m n => ?_⟩
    simp [Tally.punchEach, none, same.registry, Outcome.isOk, Outcome.validation]
  | @badInterface p e hport hinterface asks same =>
    have none : r.hole? = none := by simp [PunchRequest.hole?, hport, hinterface]
    refine ⟨_, t, [], ht, asks, same.ipv6.trans required, fun m n => ?_⟩
    simp [Tally.punchEach, none, same.registry, Outcome.isOk, Outcome.validation]
  | @already h hport hprotocol hinterface valid old asks same =>
    have some : r.hole? = some h := by
      simp [PunchRequest.hole?, hport, ← hinterface, valid.interface, ← hprotocol]
    refine ⟨_, t, [], ht, asks, same.ipv6.trans required, fun m n => ?_⟩
    simp [Tally.punchEach, Tally.openUp, some, old, Registry.insert_of_mem old, same.registry,
      Outcome.isOk, Outcome.success]
  | @tried h es q hport hprotocol hinterface valid new course asks tracked =>
    have some : r.hole? = some h := by
      simp [PunchRequest.hole?, hport, ← hinterface, valid.interface, ← hprotocol]
    rw [required] at course
    obtain ⟨changes, rfl, known⟩ := course.of_works (asks.answers.of_steady steady)
    cases opens : h.opens (k.works status) with
    | true =>
      rw [opens] at ht tracked
      refine ⟨_, t, es, ht, asks, known, fun m n => ?_⟩
      simp [Tally.punchEach, Tally.openUp, some, new, opens, tracked, changes, Registry.opened,
        Outcome.isOk, Outcome.success]
    | false =>
      rw [opens] at ht tracked
      refine ⟨_, t, es, ht, asks, known, fun m n => ?_⟩
      simp [Tally.punchEach, Tally.openUp, some, new, opens, tracked, changes, Registry.opened,
        Outcome.isOk, Outcome.external]

/-- Requests ask for what their tally says, and come to what it says. -/
theorem Toolkit.on_punchEach_of_steady
    (steady : ∀ ps argv, Executor.statusOf (k.executor.respond ps argv) = .ok (status argv))
    (required : s.ipv6 = true) (requests : List PunchRequest) :
    ∃ outcomes t es, (k.punchEach requests).on s = (.ok outcomes, t) ∧ k.Asks s es t ∧
      t.ipv6 = true ∧ ∀ m n, (⟨s.registry, m, n⟩ : Tally).punchEach (k.works status) requests =
        ⟨t.registry, m + es.map (·.change), n + outcomes.countP (·.isOk)⟩ := by
  induction requests generalizing s with
  | nil => exact ⟨[], s, [], rfl, .refl k s, required, fun m n => by simp [Tally.punchEach]⟩
  | cons r rest ih =>
    obtain ⟨o, t, es, ht, asks, known, first⟩ := k.on_punch_of_steady steady required r
    obtain ⟨outcomes, u, fs, hu, asks', known', others⟩ := ih known
    refine ⟨o :: outcomes, u, es ++ fs, ?_, asks.trans asks', known', fun m n => ?_⟩
    · simp only [punchEach, Action.on_bind, ht, hu, Action.on_pure]
    · have split : (⟨s.registry, m, n⟩ : Tally).punchEach (k.works status) (r :: rest) =
          ((⟨s.registry, m, n⟩ : Tally).punchEach (k.works status) [r]).punchEach
            (k.works status) rest := by
        rw [← List.singleton_append, Tally.punchEach, List.filterMap_append, List.foldl_append]
        rfl
      rw [split, first, others]
      have successes : (o :: outcomes).countP (·.isOk) =
          [o].countP (·.isOk) + outcomes.countP (·.isOk) :=
        (List.countP_append : ([o] ++ outcomes).countP (·.isOk) = _)
      rw [List.map_append, ← Multiset.coe_add, successes, add_assoc, add_assoc]

end Run

/-- Processes whose changes are the same up to order have the same command lines up to order. -/
theorem Toolkit.argv_processes_perm {k : Toolkit} {es fs : List Exchange}
    (perm : (es.map (·.change)).Perm (fs.map (·.change))) :
    ((k.processes es).map (·.argv)).Perm ((k.processes fs).map (·.argv)) := by
  have lines : ∀ gs : List Exchange, (k.processes gs).map (·.argv) =
      (gs.map (·.change)).flatMap fun c => if k.executor.dryRun then []
        else [k.executor.argv (k.command c) (some netfilterCapabilities)] := by
    intro gs
    rw [Toolkit.processes, List.map_flatMap, List.flatMap_map]
    refine List.flatMap_congr fun e _ => ?_
    unfold Executor.started
    split <;> rfl
  rw [lines, lines]
  exact perm.flatMap_right _

/-- Let the secondary filter have to work, and let the status of every command be a function of its
words. Then, whatever is requested and whatever is tracked before:

* every request comes to an outcome, and what is tracked in the end are the holes from before and
  those well-formed requested ones whose rules both filters take;
* in any other order the same requests lead to the same tracked holes, start the same processes up
  to their order, and succeed as often. -/
theorem punches_independent {k : Toolkit} {status : List String → Int}
    (steady : ∀ ps argv, Executor.statusOf (k.executor.respond ps argv) = .ok (status argv))
    {s : Session} (required : s.ipv6 = true) (requests : List PunchRequest) :
    ∃ outcomes t, (k.punchEach requests).on s = (.ok outcomes, t) ∧
      (∀ h : Hole, h ∈ t.registry ↔ h ∈ s.registry ∨ (∃ r ∈ requests, r.hole? = some h) ∧
        k.reportedStatus status (.inFilter .primary .add h.rule) = 0 ∧
        k.reportedStatus status (.inFilter .secondary .add h.rule) = 0) ∧
      ∀ requests' : List PunchRequest, requests'.Perm requests →
        ∃ outcomes' t', (k.punchEach requests').on s = (.ok outcomes', t') ∧
          t'.registry = t.registry ∧
          (t'.spawned.map (·.argv)).Perm (t.spawned.map (·.argv)) ∧
          outcomes'.countP (·.isOk) = outcomes.countP (·.isOk) := by
  obtain ⟨outcomes, t, es, ht, asks, -, tally⟩ := k.on_punchEach_of_steady steady required requests
  refine ⟨outcomes, t, ht, fun h => ?_, fun requests' perm => ?_⟩
  · have tracked : t.registry =
        ((⟨s.registry, 0, 0⟩ : Tally).punchEach (k.works status) requests).tracked := by
      rw [tally]
    rw [tracked, Tally.mem_tracked_punchEach]
    simp [Hole.opens, Toolkit.works]
  · obtain ⟨outcomes', t', es', ht', asks', -, tally'⟩ :=
      k.on_punchEach_of_steady steady required requests'
    have same := (tally' 0 0).symm.trans
      ((Tally.punchEach_perm (k.works status) perm _).trans (tally 0 0))
    obtain ⟨registry, changes, successes⟩ := Tally.mk.inj same
    rw [zero_add, zero_add, Multiset.coe_eq_coe] at changes
    refine ⟨outcomes', t', ht', registry, ?_, by simpa using successes⟩
    rw [asks'.spawned, asks.spawned, List.map_append, List.map_append]
    exact (Toolkit.argv_processes_perm changes).append_left _

/-- The system whose secondary filter refuses everything about port 22. -/
def Responder.refusing22 : Responder := fun _ argv =>
  if argv.contains "/sbin/ip6tables" && argv.contains "22" then .refusal else .silent

/-- Five requests, of which two are for a hole that is refused, two for one that is not, and one is
not well formed. -/
def PunchRequest.five : List PunchRequest :=
  [⟨.tcp, .int 22, ""⟩, ⟨.tcp, .int 53, "tun0"⟩, ⟨.udp, .int 0, ""⟩, ⟨.tcp, .int 22, ""⟩,
    ⟨.tcp, .int 53, "tun0"⟩]

/-- Five requests lead to one tracked hole, in the given order and in the opposite one. The hole
that is refused is asked for twice, and the other one once. -/
theorem punches_of_five_requests :
    let k := Toolkit.ofSettings { console := {}, respond := .refusing22 } {}
    let s : Session := { ipv6 := true }
    s.ipv6 = true ∧
      ∃ outcomes t outcomes' t', (k.punchEach PunchRequest.five).on s = (.ok outcomes, t) ∧
        (k.punchEach (PunchRequest.five.reverse)).on s = (.ok outcomes', t') ∧
        t.registry.holes = [⟨.tcp, 53, "tun0"⟩] ∧ t'.registry = t.registry ∧
        t.spawned.length = 8 ∧ (t'.spawned.map (·.argv)).Perm (t.spawned.map (·.argv)) ∧
        outcomes.countP (·.isOk) = 2 ∧ outcomes'.countP (·.isOk) = outcomes.countP (·.isOk) := by
  intro k s
  have steady : ∀ ps argv, Executor.statusOf (k.executor.respond ps argv) =
      .ok (if argv.contains "/sbin/ip6tables" && argv.contains "22" then 1 else 0) := by
    intro ps argv
    show Executor.statusOf (Responder.refusing22 ps argv) = _
    unfold Responder.refusing22
    split <;> rfl
  obtain ⟨outcomes, t, ht, -, any⟩ := punches_independent steady (s := s) rfl PunchRequest.five
  obtain ⟨outcomes', t', ht', registry, argvs, successes⟩ :=
    any PunchRequest.five.reverse (List.reverse_perm _)
  have run : ((k.punchEach PunchRequest.five).on s).2.registry.holes = [⟨.tcp, 53, "tun0"⟩] ∧
      ((k.punchEach PunchRequest.five).on s).2.spawned.length = 8 ∧
      ((k.punchEach PunchRequest.five).on s).1.map (·.countP (·.isOk)) = .ok 2 := by decide +kernel
  rw [ht] at run
  obtain ⟨holes, length, count⟩ := run
  exact ⟨rfl, outcomes, t, outcomes', t', ht, ht', holes, registry, length, argvs,
    Except.ok.inj count, successes⟩

/-- While the secondary filter is only tolerated, order matters: of two holes whose rules it refuses
and takes, both are opened in one order and one in the other. -/
example :
    let k := Toolkit.ofSettings { console := {}, respond := .refusing22 } {}
    ((k.punchEach (PunchRequest.five.take 2)).on {}).2.registry.holes =
        [⟨.tcp, 22, ""⟩, ⟨.tcp, 53, "tun0"⟩] ∧
      ((k.punchEach (PunchRequest.five.take 2).reverse).on {}).2.registry.holes =
        [⟨.tcp, 53, "tun0"⟩] := by decide +kernel

end Pinhole
