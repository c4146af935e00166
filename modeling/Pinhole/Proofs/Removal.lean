import Pinhole.Proofs.Rollback

/-!
# Taking steering back

Taking steering back asks for every deletion whatever the tools say to the others, so what it asks
for is known beforehand (`Toolkit.deletions`). Names that are no user's are skipped and reported,
and that report goes before what the tools said: `tearDown_attempts_all`.

The deletions are about the same rules in the same tools as the additions of a setup. After a setup
that worked each of them takes out a copy that the setup put in: `tearDown_undoes_setUp`.
-/

namespace Pinhole

/-! ## What is asked for -/

section Courses

variable {cs : List Change} {es : List Exchange} {r : Except Stop Bool}

/-- Deleting ends with whether every change was made. -/
theorem Deleting.eq_ok (h : Deleting cs es r) (uncut : ∀ e ∈ es, e.answer.reply ≠ .cut) :
    r = .ok (decide (∀ e ∈ es, e.answer.reply = .done)) := by
  induction h with
  | nil => simp
  | cut ha => exact absurd ha (uncut _ List.mem_cons_self)
  | cons ha rest ih =>
    rw [ih fun e he => uncut e (List.mem_cons_of_mem _ he)]
    simp [Except.map]

/-- Deleting in which every change was made succeeds. -/
theorem Deleting.eq_ok_true (h : Deleting cs es r) (done : ∀ e ∈ es, e.answer.reply = .done) :
    r = .ok true := by
  rw [h.eq_ok fun e he => by simp [done e he], decide_eq_true done]

end Courses

/-- The deletions that take back the steering of some users into an interface, in their order. -/
def Toolkit.deletions (k : Toolkit) (users : List String) (interface : String) : List Change :=
  [⟨.routing, .delete, .policy .ipv4 k.mark k.table⟩,
    ⟨.routing, .delete, .policy .ipv6 k.mark k.table⟩,
    .inFilter .primary .delete (.masquerade interface),
    .inFilter .secondary .delete (.masquerade interface)] ++
  users.flatMap fun user =>
    [.inFilter .primary .delete (.mark user k.mark),
      .inFilter .secondary .delete (.mark user k.mark)]

/-- The deletions are what takes the steps back. -/
theorem Toolkit.changes_delete_all (k : Toolkit) (users : List String) (interface : String) :
    k.changes .delete (SteeringStep.all users interface) = k.deletions users interface := by
  rw [changes, SteeringStep.all, List.flatMap_append, List.flatMap_map]
  rfl

/-- Without a name there is no interface, and a name has to be well formed. -/
theorem Input.exists_interface_error {name : String}
    (h : name = "" ∨ isInterface name = false) : ∃ e, interface false name = .error e := by
  unfold interface
  split
  · exact ⟨_, rfl⟩
  · rename_i hname
    have nonempty : name ≠ "" := by simpa using hname
    rw [if_neg (by simp [h.resolve_left nonempty])]
    exact ⟨_, rfl⟩

/-- Taking steering back asks for nothing if there is no such interface, and reports that. Otherwise
it asks for all deletions, for the users whose names are well formed, whatever the tools answer
unless somebody interrupts. It reports all other names in their order if there are any, whatever the
tools answered; if there are none, it succeeds exactly when every deletion worked. -/
theorem tearDown_attempts_all (k : Toolkit) (users : List String) (interface : String)
    (s : Session) :
    let malformed := users.filter (!Input.isUser ·)
    ∃ es r t, (k.steer users interface .delete).on s = (r, t) ∧ k.Asks s es t ∧
      (interface = "" ∨ Input.isInterface interface = false →
        es = [] ∧ t.spawned = s.spawned ∧ ∃ fault, Input.interface false interface = .error fault ∧
          r = .ok (.validation fault.failure.message)) ∧
      (interface ≠ "" → Input.isInterface interface = true →
        (∀ e ∈ es, e.answer ≠ .interrupted) →
        es.map (·.change) = k.deletions (users.filter (Input.isUser ·)) interface ∧
        (malformed ≠ [] → r = .ok
          (.validation ("Invalid user name(s) skipped: " ++ ", ".intercalate malformed))) ∧
        (malformed = [] → (∀ e ∈ es, e.answer.isSuccess = true) → r = .ok .success) ∧
        (malformed = [] → (∃ e ∈ es, e.answer.isSuccess = false) →
          r = .ok (.external ("Removing VPN steering on '" ++ interface ++ "' failed")))) := by
  intro malformed
  obtain ⟨r, t, ht, course⟩ := k.on_steer users interface .delete s
  cases course with
  | @badInterface _ fault hinterface asks same =>
    refine ⟨[], _, t, ht, asks, fun _ => ⟨rfl, ?_, fault, hinterface, rfl⟩, fun nonempty fit => ?_⟩
    · rw [asks.spawned]
      exact List.append_nil _
    · rw [Input.interface_eq_ok_self nonempty fit] at hinterface
      cases hinterface
  | @tearDown es r hinterface course asks same =>
    refine ⟨es, _, t, ht, asks, fun unfit => ?_, fun _ _ uninterrupted => ?_⟩
    · obtain ⟨fault, hfault⟩ := Input.exists_interface_error unfit
      rw [hinterface] at hfault
      cases hfault
    · have uncut : ∀ e ∈ es, e.answer.reply ≠ .cut :=
        fun e he => Answer.reply_ne_cut (uninterrupted e he)
      obtain rfl := course.eq_ok uncut
      have hmalformed : users.filter (!Input.isUser ·) = malformed := rfl
      simp only [Toolkit.tornDown, Answer.reply_eq_done_iff, hmalformed]
      refine ⟨?_, fun bad => ?_, fun good done => ?_, fun good failed => ?_⟩
      · rw [course.changes_eq uncut, k.changes_delete_all]
      · rw [if_pos (by simpa using bad)]
      · rw [if_neg (by simp [good]), if_pos (decide_eq_true done)]
      · obtain ⟨e, he, hfailed⟩ := failed
        have notAll : ¬ ∀ e ∈ es, e.answer.isSuccess = true := fun done => by
          rw [done e he] at hfailed
          cases hfailed
        rw [if_neg (by simp [good]), if_neg (by simpa using notAll)]

/-- Two users are taken back, of whom one was named twice, and two names are skipped. Some tools
refuse, and the second one does not answer in time. -/
theorem tearDown_attempts_all_despite_refusals :
    let k := Toolkit.scripted [.refusal, .timedOut, .silent, .refusal]
    let x := (k.steer ["alice", "-i", "bob", "", "alice"] "tun0" .delete).on {}
    x.2.exchanges.map (·.change) = k.deletions ["alice", "bob", "alice"] "tun0" ∧
      x.1 = .ok (.validation "Invalid user name(s) skipped: -i, ") := by
  intro k x
  obtain ⟨es, r, t, ht, asks, -, course⟩ :=
    tearDown_attempts_all k ["alice", "-i", "bob", "", "alice"] "tun0" {}
  have hx : x = (r, t) := ht
  have log : t.exchanges = es := (asks.exchanges rfl).trans (List.nil_append es)
  obtain rfl : x.2.exchanges = es := (congrArg (·.2.exchanges) hx).trans log
  obtain rfl : x.1 = r := congrArg (·.1) hx
  have wellFormed : Input.isInterface "tun0" = true := by decide +kernel
  have uninterrupted : ∀ e ∈ x.2.exchanges, e.answer ≠ .interrupted := by decide +kernel
  have hgood : ["alice", "-i", "bob", "", "alice"].filter (Input.isUser ·) =
      ["alice", "bob", "alice"] := by decide +kernel
  have hbad : ["alice", "-i", "bob", "", "alice"].filter (!Input.isUser ·) = ["-i", ""] := by
    decide +kernel
  obtain ⟨hchanges, reported, -, -⟩ := course (by decide) wellFormed uninterrupted
  rw [hgood] at hchanges
  rw [hbad] at reported
  exact ⟨hchanges, reported (by simp)⟩

/-! ## What it undoes -/

section Undone

variable {m : Ledger} {adds dels : List Change} {es fs : List Exchange}

/-- Some additions are undone by deleting the same in whatever order. -/
theorem Does.undone (up : Does .add adds es) (down : Does .delete dels fs)
    (same : (adds.map Ledger.place).Perm (dels.map Ledger.place)) : m.after (es ++ fs) = m := by
  refine Ledger.ext_count fun t r => ?_
  have hup := up.count_add (m := m) t r
  have hdown := down.count_delete (m := m.after es) t r
  have hsame := same.count_eq (t, r)
  rw [Ledger.after_append, hdown, hup, hsame]
  omega

/-- Every deletion that undoes an addition finds a copy to take out, however many were taken out
before. -/
theorem Does.finds_copy (up : Does .add adds es) (down : Does .delete dels fs)
    (same : (adds.map Ledger.place).Perm (dels.map Ledger.place)) {before after : List Exchange}
    {e : Exchange} (hfs : fs = before ++ e :: after) :
    e.change.rule ∈ m.after (es ++ before) e.change.tool := by
  subst hfs
  have down_before : Does .delete (before.map (·.change)) before := by
    refine ⟨rfl, fun c hc => ?_, fun d hd => down.replies d (by simp [hd])⟩
    obtain ⟨d, hd, rfl⟩ := List.mem_map.1 hc
    exact down.verbs _ (down.changes ▸ List.mem_map_of_mem (by simp [hd]))
  have hup := up.count_add (m := m) e.change.tool e.change.rule
  have hdown := down_before.count_delete (m := m.after es) e.change.tool e.change.rule
  have hsame := same.count_eq (e.change.tool, e.change.rule)
  -- Of the deletions at this place the one at hand comes after those before it.
  have hcount : (dels.map Ledger.place).count (Ledger.place e.change) =
      ((before.map (·.change)).map Ledger.place).count (Ledger.place e.change) + 1 +
        ((after.map (·.change)).map Ledger.place).count (Ledger.place e.change) := by
    rw [← down.changes, List.map_append, List.map_append, List.count_append, List.map_cons,
      List.map_cons, List.count_cons_self]
    omega
  rw [Ledger.place] at hcount
  rw [Ledger.after_append, ← Multiset.count_pos, hdown, hup, hsame, hcount]
  omega

end Undone

/-- The order of the users decides about the order of the steps only. -/
theorem SteeringStep.perm_all {users users' : List String} (same : users.Perm users')
    (interface : String) : (all users interface).Perm (all users' interface) :=
  (same.map mark).append_left _

/-- A setup of well-formed names asks for the additions of all steps if nothing is refused, and
succeeds. -/
theorem Toolkit.on_setUp_done (k : Toolkit) {users : List String} {interface : String}
    (named : ∀ user ∈ users, Input.isUser user = true)
    (hinterface : Input.interface false interface = .ok interface) (s : Session) :
    ∃ es r t, (k.steer users interface .add).on s = (r, t) ∧ k.Asks s es t ∧
      ((∀ e ∈ es, e.answer.reply = .done) →
        Does .add (k.changes .add (SteeringStep.all users interface)) es ∧ r = .ok .success) := by
  obtain ⟨r, t, ht, course⟩ := k.on_steer users interface .add s
  cases course with
  | badInterface bad asks holes => cases bad.symm.trans hinterface
  | @badUser user _ huser asks holes =>
    have bad := List.find?_some huser
    simp [named _ (List.mem_of_find?_eq_some huser)] at bad
  | @setUp es r _ husers course asks holes =>
    refine ⟨es, r, t, ht, asks, fun done => ?_⟩
    rcases course.asks fun e he => by simp [done e he] with ⟨-, changes, hr⟩ |
      ⟨before, step, after, ups, e, downs, hsteps, rfl, hdone, hverb, hrefused, hfailed, hr⟩
    · exact ⟨⟨changes, fun c hc => verb_of_mem_changes hc, done⟩, hr⟩
    · have hdone : e.answer.reply = .done := done e (by simp)
      rw [hrefused] at hdone
      cases hdone

/-- Taking back the steering of well-formed names asks for all deletions if nothing is refused, and
succeeds. -/
theorem Toolkit.on_tearDown_done (k : Toolkit) {users : List String} {interface : String}
    (named : ∀ user ∈ users, Input.isUser user = true)
    (hinterface : Input.interface false interface = .ok interface) (s : Session) :
    ∃ es r t, (k.steer users interface .delete).on s = (r, t) ∧ k.Asks s es t ∧
      ((∀ e ∈ es, e.answer.reply = .done) →
        Does .delete (k.changes .delete (SteeringStep.all users interface)) es ∧
          r = .ok .success) := by
  obtain ⟨r, t, ht, course⟩ := k.on_steer users interface .delete s
  cases course with
  | badInterface bad asks holes => cases bad.symm.trans hinterface
  | @tearDown es r _ course asks holes =>
    have hgood : users.filter (Input.isUser ·) = users := List.filter_eq_self.2 named
    have hbad : users.filter (!Input.isUser ·) = [] :=
      List.filter_eq_nil_iff.2 fun user h => by simp [named user h]
    rw [hgood] at course
    refine ⟨es, _, t, ht, asks, fun done =>
      ⟨course.does (fun c hc => verb_of_mem_changes hc) done, ?_⟩⟩
    rw [course.eq_ok_true done, tornDown, hbad]
    rfl

/-- Take the steering of some users back after it was set up, with the users in whatever order. If
every command works, both succeed, and all rules are as they were before, whatever there was. What
is deleted is what was added, one for one: every deletion finds a copy to take out. -/
theorem tearDown_undoes_setUp (k : Toolkit) {users users' : List String} {interface : String}
    (same : users.Perm users') (named : ∀ user ∈ users, Input.isUser user = true)
    (nonempty : interface ≠ "") (wellFormed : Input.isInterface interface = true) (s : Session) :
    ∃ es fs r q t u, (k.steer users interface .add).on s = (r, t) ∧
      (k.steer users' interface .delete).on t = (q, u) ∧ k.Asks s es t ∧ k.Asks t fs u ∧
      ((∀ e ∈ es ++ fs, e.answer.isSuccess = true) →
        r = .ok .success ∧ q = .ok .success ∧
        (∀ e ∈ es, e.change.verb = .add) ∧ (∀ e ∈ fs, e.change.verb = .delete) ∧
        (es.map (Ledger.place ·.change)).Perm (fs.map (Ledger.place ·.change)) ∧
        ∀ m : Ledger, m.after (es ++ fs) = m ∧
          ∀ before e after, fs = before ++ e :: after →
            e.change.rule ∈ m.after (es ++ before) e.change.tool) := by
  have hinterface : Input.interface false interface = .ok interface :=
    Input.interface_eq_ok_self nonempty wellFormed
  have named' : ∀ user ∈ users', Input.isUser user = true :=
    fun user h => named user (same.mem_iff.2 h)
  obtain ⟨es, r, t, ht, asks, course⟩ := k.on_setUp_done named hinterface s
  obtain ⟨fs, q, u, hu, asks', course'⟩ := k.on_tearDown_done named' hinterface t
  refine ⟨es, fs, r, q, t, u, ht, hu, asks, asks', fun works => ?_⟩
  obtain ⟨done, done'⟩ := List.forall_mem_append.1 fun e he =>
    (Answer.reply_eq_done_iff e.answer).2 (works e he)
  obtain ⟨up, hr⟩ := course done
  obtain ⟨down, hq⟩ := course' done'
  have places := k.perm_place_changes .add .delete (SteeringStep.perm_all same interface)
  refine ⟨hr, hq, fun e he => ?_, fun e he => ?_, ?_, fun m => ⟨up.undone down places, ?_⟩⟩
  · exact up.verbs _ (up.changes ▸ List.mem_map_of_mem he)
  · exact down.verbs _ (down.changes ▸ List.mem_map_of_mem he)
  · rwa [← up.changes, ← down.changes, List.map_map, List.map_map] at places
  · exact fun before e after hfs => up.finds_copy down places hfs

/-- Two users are steered, one of whom is named twice, and then taken back in another order. Some of
the rules were there before. -/
theorem tearDown_undoes_setUp_of_two_users :
    let k := Toolkit.scripted []
    let t := ((k.steer ["alice", "bob", "alice"] "tun0" .add).on {}).2
    let u := ((k.steer ["bob", "alice", "alice"] "tun0" .delete).on t).2
    let m : Ledger := fun _ => {Rule.masquerade "tun0", Rule.mark "alice" "1"}
    m.after u.exchanges = m ∧ u.exchanges.length = 20 := by
  intro k t u m
  have same : ["alice", "bob", "alice"].Perm ["bob", "alice", "alice"] := by decide
  have named : ∀ user ∈ ["alice", "bob", "alice"], Input.isUser user = true := by decide +kernel
  have wellFormed : Input.isInterface "tun0" = true := by decide +kernel
  obtain ⟨es, fs, r, q, t', u', ht, hu, asks, asks', course⟩ :=
    tearDown_undoes_setUp k same named (by decide) wellFormed {}
  obtain rfl : t = t' := congrArg (·.2) ht
  obtain rfl : u = u' := congrArg (·.2) hu
  have log : u.exchanges = es ++ fs := by
    rw [asks'.exchanges rfl, asks.exchanges rfl]
    rfl
  have works : ∀ e ∈ u.exchanges, e.answer.isSuccess = true := by decide +kernel
  rw [log] at works
  obtain ⟨-, -, -, -, -, undone⟩ := course works
  exact ⟨log ▸ (undone m).1, by decide +kernel⟩

end Pinhole
