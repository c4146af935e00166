import Pinhole.Audit.Journal

/-!
# Faults that the system knows

A path with a null character never reaches the system, and what fails because of it is no fault of
the system's. No other operation on files fails in that way: `known_store` says that of a journal
whose path has no null character whatever the tree is like in which events are stored.
-/

namespace Pinhole

namespace Path

variable {p q : Path}

/-- A path has no null character if each of its names is a name of one that has none. -/
theorem hasNull_eq_false_of_subset (h : p.hasNull = false) (sub : ∀ x ∈ q.parts, x ∈ p.parts) :
    q.hasNull = false :=
  List.any_eq_false.2 fun x hx => List.any_eq_false.1 h x (sub x hx)

theorem hasNull_parent (h : p.hasNull = false) : p.parent.hasNull = false :=
  hasNull_eq_false_of_subset h fun _ => (List.dropLast_sublist _).mem

/-- The last name of a path without null characters has none. -/
theorem name_no_null (h : p.hasNull = false) : Char.ofNat 0 ∉ p.name.toList := by
  rw [name]
  cases hlast : p.parts.getLast? with
  | none => simp
  | some x => simpa using List.any_eq_false.1 h x (List.mem_of_getLast? hlast)

theorem hasNull_withName {name : String} (h : p.hasNull = false)
    (hname : Char.ofNat 0 ∉ name.toList) : (p.withName name).hasNull = false := by
  refine List.any_eq_false.2 fun x hx => ?_
  rcases List.mem_append.1 hx with hx | hx
  · exact List.any_eq_false.1 h x ((List.dropLast_sublist _).mem hx)
  · simpa [List.mem_singleton.1 hx] using hname

end Path

namespace Files

variable {α β : Type}

/-- If there is a fault, the system knows of it. -/
def Known (r : Except Fault α) : Prop := ∀ f, r = .error f → f.isOfSystem = true

theorem known_ok (a : α) : Known (.ok a) := nofun

theorem known_error {f : Fault} (h : f.obstacle ≠ .unspeakable) :
    Known (.error f : Except Fault α) := by
  intro g hg
  obtain rfl := Except.error.inj hg
  simpa [Fault.isOfSystem] using h

theorem known_bind {r : Except Fault α} {f : α → Except Fault β} (h : Known r)
    (rest : ∀ a, Known (f a)) : Known (r >>= f) := by
  cases r with
  | ok a => exact rest a
  | error e => exact fun g hg => h g (by rw [Except.error.inj hg])

namespace Tree

variable {t : Tree} {p q : Path}

/-- No walk comes to what the system knows nothing of. -/
theorem walk_ne_unspeakable (t : Tree) (l : Location) (names : List String) :
    t.walk l names ≠ .error .unspeakable := by
  induction names generalizing l with
  | nil => simp [walk]
  | cons name names ih =>
    rw [walk]
    split
    · simp
    · simp
    · split
      · simp
      · exact ih _

theorem locate_ne_unspeakable (t : Tree) (h : p.hasNull = false) :
    t.locate p ≠ .error .unspeakable := by
  rw [locate, h]
  simp only [Bool.false_eq_true, if_false]
  split
  · simp
  · exact t.walk_ne_unspeakable _ _

theorem known_contains (t : Tree) (p : Path) : Known (t.contains p) := by
  unfold contains
  split
  · exact known_ok _
  · exact known_error (by simp [fault])
  · exact known_ok _

theorem known_openFile (t : Tree) (h : p.hasNull = false) : Known (t.openFile p) := by
  have speakable := t.locate_ne_unspeakable h
  unfold openFile
  split
  · rename_i o ho
    exact known_error fun hf => speakable (by rw [ho]; exact congrArg _ hf)
  · split
    · exact known_error (by simp [fault])
    · exact known_ok _
    · split
      · exact known_ok _
      · exact known_error (by simp [fault])

theorem known_append (t : Tree) (h : p.hasNull = false) (more : ByteArray) :
    Known (t.append p more) :=
  known_bind (t.known_openFile h) fun _ => known_ok _

theorem known_size (t : Tree) (p : Path) : Known (t.size p) := by
  unfold size
  split
  · exact known_ok _
  · exact known_ok _
  · exact known_error (by simp [fault])

theorem known_rename (t : Tree) (hp : p.hasNull = false) (hq : q.hasNull = false) :
    Known (t.rename p q) := by
  have speakable := t.locate_ne_unspeakable hp
  have speakable' := t.locate_ne_unspeakable hq
  unfold rename
  dsimp only
  split
  · rename_i o ho
    exact known_error fun hf => speakable (by rw [ho]; exact congrArg _ hf)
  · rename_i o ho _
    exact known_error fun hf => speakable' (by rw [ho]; exact congrArg _ hf)
  · split
    · exact known_error (by simp)
    · exact known_error (by simp)
    · exact known_error (by simp)
    · split
      · exact known_ok _
      split
      · exact known_error (by simp)
      split
      · exact known_error (by simp)
      · exact known_ok _

/-- Making one directory meets no obstacle that the system knows nothing of. -/
theorem makeDirectory_ne_unspeakable (t : Tree) (h : p.hasNull = false) :
    t.makeDirectory p ≠ .error .unspeakable := by
  have speakable := t.locate_ne_unspeakable h
  unfold makeDirectory
  split
  · rename_i o ho
    exact fun hf => speakable (by rw [ho, Except.error.inj hf])
  · split
    · simp
    · split <;> simp

theorem known_settle (t : Tree) {r : Except Obstacle Tree} (h : r ≠ .error .unspeakable) :
    Known (t.settle p r).1 := by
  cases r with
  | ok u => exact known_ok _
  | error o =>
    simp only [settle]
    split
    · exact known_ok _
    · exact known_error fun hf => h (congrArg _ hf)

theorem known_makeDirectories (t : Tree) (h : p.hasNull = false) :
    Known (t.makeDirectories p).1 := by
  have made : ∀ (t : Tree) (n : Nat),
      t.makeDirectory { p with parts := p.parts.take n } ≠ .error .unspeakable := fun t n =>
    t.makeDirectory_ne_unspeakable
      (Path.hasNull_eq_false_of_subset h fun _ => List.mem_of_mem_take)
  have steps : ∀ n (t : Tree), Known (makeDirectories.go p t n).1 := by
    intro n
    induction n with
    | zero =>
      intro t
      unfold makeDirectories.go
      exact t.known_settle (made t 0)
    | succ n ih =>
      intro t
      unfold makeDirectories.go
      dsimp only
      cases hmade : t.makeDirectory { p with parts := p.parts.take (n + 1) } with
      | ok u => exact known_ok _
      | error o =>
        by_cases missing : o = .missing
        · subst missing
          -- The directories before are made first; then this one is tried again.
          have before := ih t
          rcases hgo : makeDirectories.go p t n with ⟨r, u⟩
          rw [hgo] at before
          simp only [hgo]
          cases r with
          | ok _ => exact u.known_settle (made u (n + 1))
          | error f => exact before
        · have other : (Except.error o : Except Obstacle Tree) ≠ .error .unspeakable :=
            hmade ▸ made t (n + 1)
          cases o with
          | missing => exact absurd rfl missing
          | _ => exact t.known_settle other
  exact steps _ t

end Tree

/-- Work on files in which the system knows of every fault. -/
def Filing.Known (x : Filing α) : Prop := ∀ t, Files.Known (x.on t).1

namespace Filing

theorem known_pure (a : α) : Known (pure a : Filing α) := fun _ => known_ok a

theorem known_bind {x : Filing α} {f : α → Filing β} (h : Known x) (rest : ∀ a, Known (f a)) :
    Known (x >>= f) := by
  intro t
  rw [on_bind]
  have first := h t
  rcases hx : x.on t with ⟨r, u⟩
  rw [hx] at first
  cases r with
  | ok a => exact rest a u
  | error e => exact fun g hg => first g (by rw [Except.error.inj hg])

theorem known_look {f : Tree → Except Fault α} (h : ∀ t, Files.Known (f t)) : Known (look f) := h

theorem known_attempt {f : Tree → Except Fault α × Tree} (h : ∀ t, Files.Known (f t).1) :
    Known (attempt f) := h

theorem known_change {f : Tree → Except Fault Tree} (h : ∀ t, Files.Known (f t)) :
    Known (change f) := by
  intro t
  rw [on_change]
  have first := h t
  cases hf : f t with
  | ok u => exact known_ok _
  | error e => exact fun g hg => first g (by rw [hf, Except.error.inj hg])

end Filing

end Files

/-! ## Journals -/

namespace Audit.Journal

open Files

variable {j : Journal}

theorem hasNull_backup (h : j.path.hasNull = false) (n : Nat) : (j.backup n).hasNull = false := by
  refine Path.hasNull_withName h ?_
  simp only [String.toList_append, List.mem_append, not_or]
  refine ⟨⟨Path.name_no_null h, by decide⟩, fun hn => ?_⟩
  have digit := Nat.isDigit_of_mem_toDigits (by decide) (by decide)
    (show Char.ofNat 0 ∈ Nat.toDigits 10 n by simpa using hn)
  exact absurd digit (by decide)

theorem known_shift (h : j.path.hasNull = false) (n : Nat) : (j.shift n).Known := by
  induction n with
  | zero => exact Filing.known_pure _
  | succ n ih =>
    unfold shift
    refine Filing.known_bind (Filing.known_look fun t => t.known_contains _) fun found => ?_
    split
    · refine Filing.known_bind (Filing.known_change fun t => ?_) fun _ => ih
      exact t.known_rename (hasNull_backup h _) (hasNull_backup h _)
    · exact ih

theorem known_rotate (h : j.path.hasNull = false) : j.rotate.Known := by
  refine Filing.known_bind (known_shift h _) fun _ => ?_
  refine Filing.known_bind (Filing.known_change fun t => ?_) fun _ => ?_
  · exact t.known_rename h (hasNull_backup h 1)
  · exact Filing.known_change fun t => t.known_append h _

/-- The system knows of every fault that storing an event at a path without null characters meets. -/
theorem known_store (h : j.path.hasNull = false) (e : Event) : (j.store e).Known := by
  unfold store appendLine
  refine Filing.known_bind ?_ fun _ => ?_
  · refine Filing.known_bind (Filing.known_attempt fun t => ?_) fun _ => ?_
    · exact t.known_makeDirectories (Path.hasNull_parent h)
    · exact Filing.known_change fun t => t.known_append h _
  · refine Filing.known_bind (Filing.known_look fun t => t.known_size _) fun size => ?_
    split
    · exact known_rotate h
    · exact Filing.known_pure _

end Audit.Journal

end Pinhole
