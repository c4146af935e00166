import Pinhole.Proofs.Answers

/-!
# Holes and steering do not interfere

Calls about holes and calls that steer go through one toolkit, in any order. What the calls of one
kind give back, start and leave behind depends on the calls of that kind and on the answers to their
own commands only: two runs in which these are the same have the same log of that kind, whatever
calls of the other kind are in between.

`Separate` is what this takes of a kind of calls: foreign calls keep two sessions related on either
side, and own calls are decided by their answers. `Separate.served` goes through two runs abreast.
-/

namespace Pinhole

/-! ## The log of a run -/

/-- Whether a call is about holes. -/
def Call.isHole : Call → Bool
  | .steer .. => false
  | .punch .. | .plug .. | .plugAll => true

/-- Whether a call steers. -/
def Call.isSteering (c : Call) : Bool := !c.isHole

/-- A call that was served: what it gives back by either wish, and the processes it started. -/
structure Served where
  call : Call
  returned : Wish → Except Stop Returned
  processes : List Spawned

/-- The answers to the commands of some calls, in their order. -/
def answered (log : List Served) : List Answer :=
  log.flatMap fun e => e.processes.map (·.answer)

namespace Toolkit

/-- What a toolkit writes down while it serves some calls. -/
def served (k : Toolkit) : List Call → Session → List Served
  | [], _ => []
  | c :: calls, s =>
    ⟨c, fun wish => k.returned s wish c, (k.perform s c).spawned.drop s.spawned.length⟩ ::
      k.served calls (k.perform s c)

end Toolkit

/-- The part of a log that is about calls of one kind. -/
def Served.ofKind (own : Call → Bool) (log : List Served) : List Served :=
  log.filter (own ·.call)

/-! ## One call in two runs -/

/-- A call comes to the same in two runs if the answers agree. -/
def CallDecided (k k' : Toolkit) (Same : Session → Session → Prop) (s s' : Session) (c : Call) :
    Prop :=
  ∃ es fs, k.Asks s es (k.perform s c) ∧ k'.Asks s' fs (k'.perform s' c) ∧
    (Agree (answers es) (answers fs) → es = fs ∧
      (∀ wish, k.returned s wish c = k'.returned s' wish c) ∧ Same (k.perform s c) (k'.perform s' c))

/-- A call is decided if its action is. -/
theorem Settled.call {k k' : Toolkit} {Same : Session → Session → Prop} {s s' : Session} {c : Call}
    {α : Type} {x y : Except Stop α × Session} (h : Settled k k' Same s s' x y)
    (give : Wish → α → Returned) (hx : k.perform s c = x.2) (hy : k'.perform s' c = y.2)
    (hr : ∀ wish, k.returned s wish c = x.1.map (give wish))
    (hr' : ∀ wish, k'.returned s' wish c = y.1.map (give wish)) : CallDecided k k' Same s s' c := by
  obtain ⟨es, fs, asks, asks', course⟩ := h
  rw [CallDecided, hx, hy]
  refine ⟨es, fs, asks, asks', fun agree => ?_⟩
  obtain ⟨hes, hend, same⟩ := course agree
  exact ⟨hes, fun wish => by rw [hr, hr', hend], same⟩

namespace Toolkit

variable (k : Toolkit) (respond : Responder) {s s' : Session}

/-- A call about holes is decided by the answers and by what is known and tracked. -/
theorem callDecided_of_isHole {c : Call} (hole : c.isHole = true) (same : SameHoles s s') :
    CallDecided k (k.facing respond) SameHoles s s' c := by
  cases c with
  | punch protocol port interface =>
    exact (k.settled_punch respond protocol port interface same).call Returned.ofOutcome rfl rfl
      (fun _ => rfl) fun _ => rfl
  | plug protocol port interface =>
    exact (k.settled_plug respond protocol port interface same).call Returned.ofOutcome rfl rfl
      (fun _ => rfl) fun _ => rfl
  | plugAll =>
    exact (k.settled_plugAll respond same).call (fun _ _ => .nothing) rfl rfl (fun _ => rfl)
      fun _ => rfl
  | steer verb users interface => cases hole

/-- A call that steers is decided by the answers. -/
theorem callDecided_of_isSteering {c : Call} (steering : c.isSteering = true) (s s' : Session) :
    CallDecided k (k.facing respond) (fun _ _ => True) s s' c := by
  cases c with
  | steer verb users interface =>
    exact (k.settled_steer respond users interface verb s s').call Returned.ofOutcome rfl rfl
      (fun _ => rfl) fun _ => rfl
  | punch | plug | plugAll => cases steering

/-- A call that steers touches neither the tracked holes nor what is known. -/
theorem sameHoles_of_isSteering {c : Call} (steering : c.isSteering = true) (s : Session) :
    SameHoles s (k.perform s c) := by
  cases c with
  | steer verb users interface =>
    obtain ⟨r, t, ht, course⟩ := k.on_steer users interface verb s
    rw [perform, ht]
    cases course with
    | badInterface _ _ same => exact same
    | badUser _ _ _ same => exact same
    | setUp _ _ _ _ same => exact same
    | tearDown _ _ _ same => exact same
  | punch | plug | plugAll => cases steering

end Toolkit

/-! ## Answers on record -/

section Record

variable {k : Toolkit} {respond : Responder} {s t : Session} {ps qs : List Spawned}
  {es fs : List Exchange}

/-- What a session adds to the processes of another are those of the exchanges in between. -/
theorem Toolkit.Asks.drop_spawned (h : k.Asks s es t) :
    t.spawned.drop s.spawned.length = k.processes es := by
  rw [h.spawned, List.drop_left]

/-- Outside of a dry run every answer is on record. -/
theorem Toolkit.map_answer_processes (live : k.executor.dryRun = false) (es : List Exchange) :
    (k.processes es).map (·.answer) = answers es := by
  induction es with
  | nil => rfl
  | cons e es ih =>
    rw [Toolkit.processes, List.flatMap_cons, Executor.started, live, List.map_append]
    exact congrArg (e.answer :: ·) ih

/-- Where the answers on record agree all answers do. -/
theorem agree_of_processes (h : k.Answers ps es) (h' : (k.facing respond).Answers qs fs)
    (agree : Agree ((k.processes es).map (·.answer))
      (((k.facing respond).processes fs).map (·.answer))) : Agree (answers es) (answers fs) := by
  cases hdry : k.executor.dryRun with
  | true =>
    exact .of_constant (List.forall_mem_map.2 (h.silent hdry))
      (List.forall_mem_map.2 (h'.silent hdry))
  | false =>
    rwa [Toolkit.map_answer_processes hdry,
      Toolkit.map_answer_processes (k := k.facing respond) hdry] at agree

end Record

/-! ## Two runs abreast -/

/-- Two lists of calls with the same own calls, and foreign calls anywhere in between. -/
inductive Abreast (own : Call → Bool) : List Call → List Call → Prop
  | nil : Abreast own [] []
  | left {c : Call} {cs ds : List Call} (foreign : own c = false) (rest : Abreast own cs ds) :
    Abreast own (c :: cs) ds
  | right {d : Call} {cs ds : List Call} (foreign : own d = false) (rest : Abreast own cs ds) :
    Abreast own cs (d :: ds)
  | both {c : Call} {cs ds : List Call} (shared : own c = true) (rest : Abreast own cs ds) :
    Abreast own (c :: cs) (c :: ds)

/-- Foreign calls only on the right. -/
theorem Abreast.of_filter_eq_nil {own : Call → Bool} {ds : List Call} (h : ds.filter own = []) :
    Abreast own [] ds := by
  induction ds with
  | nil => exact .nil
  | cons d ds ih =>
    cases hown : own d with
    | true => simp [hown] at h
    | false => exact .right hown (ih (by simpa [hown] using h))

/-- Lists of calls that have the same own calls can be gone through abreast. -/
theorem Abreast.of_filter_eq {own : Call → Bool} {cs ds : List Call}
    (h : cs.filter own = ds.filter own) : Abreast own cs ds := by
  induction cs generalizing ds with
  | nil => exact .of_filter_eq_nil h.symm
  | cons c cs ih =>
    cases hown : own c with
    | false => exact .left hown (ih (by simpa [hown] using h))
    | true =>
      rw [List.filter_cons_of_pos hown] at h
      -- The shared call comes on the right after some foreign ones.
      induction ds with
      | nil => cases h
      | cons d ds ih' =>
        cases hown' : own d with
        | false => exact .right hown' (ih' (by simpa [hown'] using h))
        | true =>
          rw [List.filter_cons_of_pos hown'] at h
          obtain ⟨rfl, rest⟩ := List.cons.inj h
          exact .both hown (ih rest)

/-- Calls of one kind do not depend on the others: these keep sessions related on either side, and
the own calls come to the same in related sessions if the answers agree. -/
structure Separate (own : Call → Bool) (Same : Session → Session → Prop) (k k' : Toolkit) : Prop where
  left : ∀ {c s s'}, own c = false → Same s s' → Same (k.perform s c) s'
  right : ∀ {c s s'}, own c = false → Same s s' → Same s (k'.perform s' c)
  decided : ∀ {c s s'}, own c = true → Same s s' → CallDecided k k' Same s s' c

/-- Calls of a kind that is separate from the others leave the same behind in the log, if the answers
to their own commands agree. -/
theorem Separate.served {own : Call → Bool} {Same : Session → Session → Prop} {k : Toolkit}
    {respond : Responder} (separate : Separate own Same k (k.facing respond)) {cs ds : List Call}
    (abreast : Abreast own cs ds) {s s' : Session} (same : Same s s')
    (agree : Agree (answered (Served.ofKind own (k.served cs s)))
      (answered (Served.ofKind own ((k.facing respond).served ds s')))) :
    Served.ofKind own (k.served cs s) = Served.ofKind own ((k.facing respond).served ds s') ∧
      Same (k.serve cs s) ((k.facing respond).serve ds s') := by
  induction abreast generalizing s s' with
  | nil => exact ⟨rfl, same⟩
  | @left c cs ds foreign rest ih =>
    have hskip : Served.ofKind own (k.served (c :: cs) s) =
        Served.ofKind own (k.served cs (k.perform s c)) := List.filter_cons_of_neg (by simp [foreign])
    rw [hskip] at agree ⊢
    exact ih (separate.left foreign same) agree
  | @right d cs ds foreign rest ih =>
    have hskip : Served.ofKind own ((k.facing respond).served (d :: ds) s') =
        Served.ofKind own ((k.facing respond).served ds ((k.facing respond).perform s' d)) :=
      List.filter_cons_of_neg (by simp [foreign])
    rw [hskip] at agree ⊢
    exact ih (separate.right foreign same) agree
  | @both c cs ds shared rest ih =>
    obtain ⟨es, fs, asks, asks', course⟩ := separate.decided shared same
    have hlog : Served.ofKind own (k.served (c :: cs) s) =
        ⟨c, fun wish => k.returned s wish c, k.processes es⟩ ::
          Served.ofKind own (k.served cs (k.perform s c)) := by
      rw [← asks.drop_spawned]
      exact List.filter_cons_of_pos shared
    have hlog' : Served.ofKind own ((k.facing respond).served (c :: ds) s') =
        ⟨c, fun wish => (k.facing respond).returned s' wish c, (k.facing respond).processes fs⟩ ::
          Served.ofKind own ((k.facing respond).served ds ((k.facing respond).perform s' c)) := by
      rw [← asks'.drop_spawned]
      exact List.filter_cons_of_pos shared
    rw [hlog, hlog'] at agree ⊢
    simp only [answered, List.flatMap_cons] at agree
    obtain ⟨rfl, hreturned, same'⟩ :=
      course (agree_of_processes asks.answers asks'.answers agree.of_append)
    -- The system has no part in the processes beside their answers.
    have hprocesses : (k.facing respond).processes es = k.processes es := rfl
    rw [hprocesses] at agree ⊢
    obtain ⟨hrest, hend⟩ := ih same' agree.of_append_self
    rw [hrest, funext hreturned]
    exact ⟨rfl, hend⟩

namespace Toolkit

variable (k : Toolkit) (respond : Responder)

/-- Calls about holes are separate from those that steer. -/
theorem separate_isHole : Separate Call.isHole SameHoles k (k.facing respond) where
  left hown same :=
    (k.sameHoles_of_isSteering (by simp [Call.isSteering, hown]) _).symm.trans same
  right hown same :=
    same.trans ((k.facing respond).sameHoles_of_isSteering (by simp [Call.isSteering, hown]) _)
  decided hown same := k.callDecided_of_isHole respond hown same

/-- Calls that steer are separate from those about holes, wherever they begin. -/
theorem separate_isSteering :
    Separate Call.isSteering (fun _ _ => True) k (k.facing respond) where
  left _ _ := trivial
  right _ _ := trivial
  decided hown _ := k.callDecided_of_isSteering respond hown _ _

end Toolkit

/-- Holes and steering do not interfere. Two runs of a service whose calls about holes are the same,
and in which the i-th command of these calls gets the same answer, give back the same to these calls,
start the same processes for them, and track the same holes and know the same of the secondary filter
in the end, whatever is steered in between. What steering gives back and starts is the same in two
runs with the same calls to steer and the same answers to their commands, whatever else is tracked,
known or asked for. -/
theorem holes_and_steering_apart (f : Config.Firewall) (verbosity : Int) (root dryRun : Bool)
    (respond respond' : Responder) (calls calls' : List Call) (s s' : Session) :
    let k := Toolkit.service f verbosity root respond dryRun
    let k' := Toolkit.service f verbosity root respond' dryRun
    let log own := Served.ofKind own (k.served calls s)
    let log' own := Served.ofKind own (k'.served calls' s')
    let t := k.serve calls s
    let t' := k'.serve calls' s'
    (SameHoles s s' → calls.filter Call.isHole = calls'.filter Call.isHole →
      (∀ (i : Nat) (a b : Answer), (answered (log Call.isHole))[i]? = some a →
        (answered (log' Call.isHole))[i]? = some b → a = b) →
      log Call.isHole = log' Call.isHole ∧ t.registry = t'.registry ∧ t.ipv6 = t'.ipv6) ∧
    (calls.filter Call.isSteering = calls'.filter Call.isSteering →
      (∀ (i : Nat) (a b : Answer), (answered (log Call.isSteering))[i]? = some a →
        (answered (log' Call.isSteering))[i]? = some b → a = b) →
      log Call.isSteering = log' Call.isSteering) := by
  intro k k' log log' t t'
  constructor
  · intro same shared agree
    obtain ⟨hlog, same'⟩ := (k.separate_isHole respond').served (.of_filter_eq shared) same
      (Agree.iff_getElem?.2 agree)
    exact ⟨hlog, same'.registry.symm, same'.ipv6.symm⟩
  · intro shared agree
    exact ((k.separate_isSteering respond').served (.of_filter_eq shared) trivial
      (Agree.iff_getElem?.2 agree)).1

/-- A setup that fails at once may come before a hole is punched or after it. -/
theorem failed_setUp_before_or_after_punch :
    let k := Toolkit.service {} 0 true
      (.scripted [.silent, .silent, .refusal, .silent, .silent]) false
    let k' := Toolkit.service {} 0 true (.scripted [.refusal]) false
    let punch := Call.punch .tcp (.int 22) ""
    let setUp := Call.steer .add ["alice"] "tun0"
    let log own := Served.ofKind own (k.served [punch, setUp, .plugAll] {})
    let log' own := Served.ofKind own (k'.served [setUp, punch, .plugAll] {})
    log Call.isHole = log' Call.isHole ∧ log Call.isSteering = log' Call.isSteering := by
  intro k k' punch setUp log log'
  have agree : ∀ {as bs : List Answer}, as = bs →
      ∀ (i : Nat) (a b : Answer), as[i]? = some a → bs[i]? = some b → a = b := by
    rintro as _ rfl i a b ha hb
    exact Option.some.inj (ha.symm.trans hb)
  have holes : answered (log Call.isHole) = answered (log' Call.isHole) := by decide +kernel
  have steering : answered (log Call.isSteering) = answered (log' Call.isSteering) := by
    decide +kernel
  have apart := holes_and_steering_apart {} 0 true false
    (.scripted [.silent, .silent, .refusal, .silent, .silent]) (.scripted [.refusal])
    [punch, setUp, .plugAll] [setUp, punch, .plugAll] {} {}
  exact ⟨(apart.1 ⟨rfl, rfl⟩ rfl (agree holes)).1, apart.2 rfl (agree steering)⟩

end Pinhole
