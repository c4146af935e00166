import Pinhole.Proofs.JournalLines

/-!
# Lines that are added to a log

What storing events makes of the bytes on a machine, whatever was there before. The line of an event
stands behind what the file of the journal holds. A file that is longer than the limit then becomes
the first backup, all backups before it move on by one, and the last of a full row goes.

`Journal.filled` says so of the contents of files, and `Journal.Adds` that these are found on the
machine: `adds_of_stores`. The directory of the journal may hold anything, with gaps in the row of
backups, and may be made for the first line.
-/

namespace Pinhole

namespace Files.Tree

variable {t u : Tree} {k l m s d : Location} {p q : Path} {name name' : String}

/-- A path that leads somewhere leads there in every tree in which a path beside it does. -/
theorem locate_beside (leads : t.locate (p.withName name) = .ok l) (here : u.here = t.here)
    (beside : u.locate (p.withName name') = .ok m) : u.locate (p.withName name) = .ok l := by
  obtain ⟨speakable, short, arrives⟩ := locate_eq_ok_iff.1 leads
  obtain ⟨-, -, arrives'⟩ := locate_eq_ok_iff.1 beside
  obtain ⟨-, -, -, shortName, -⟩ := walk_concat.1 arrives
  obtain ⟨k, before, directory, -, -⟩ := walk_concat.1 arrives'
  have there : u.locate (p.withName name) = .ok (stepTo k name) :=
    locate_eq_ok_iff.2 ⟨speakable, short, walk_concat.2 ⟨k, before, directory, shortName, rfl⟩⟩
  rw [there, eq_place there, eq_place leads, place_congr here]

/-- What a path is found not to lead to is not at its place, if a path beside it leads somewhere. -/
theorem lookup?_of_not_contains (absent : t.contains (p.withName name) = .ok false)
    (speakable : (p.withName name).hasNull = false)
    (beside : t.locate (p.withName name') = .ok m) :
    t.lookup? (t.place (p.withName name)) = none := by
  obtain ⟨-, -, arrives⟩ := locate_eq_ok_iff.1 beside
  obtain ⟨k, before, directory, -, -⟩ := walk_concat.1 arrives
  rcases locate_withName before directory speakable with leads | long
  · rw [← eq_place leads]
    simpa [contains, leads] using absent
  · simp [contains, long] at absent

/-- No bytes are found where there are only directories. -/
theorem contentAt_of_directories (directories : ∀ x ∈ t.entries, x.2 = .directory) (l : Location) :
    t.contentAt l = .empty := by
  unfold contentAt
  split
  · rename_i content found
    unfold lookup? at found
    split at found
    · cases found
    · obtain ⟨before, after, entries, -⟩ := List.lookup_eq_some_iff.1 found
      cases directories (l, .file content) (by simp [entries])
  · rfl

/-! ## Renaming -/

/-- Renaming puts what is at the one place at the other, with what is below it, in place of what is
there. A file does not take the place of a directory. -/
theorem eq_put_of_rename (done : t.rename p q = .ok u) (source : t.locate p = .ok s)
    (target : t.locate q = .ok d) (ne : s ≠ d) :
    ∃ e moved, t.lookup? s = some e ∧ (e ≠ .directory → t.lookup? d ≠ some .directory) ∧
      (∀ x ∈ moved, d.length < x.1.length) ∧
      u = { t with
        entries := (t.entries.filter fun x : Location × Entry => !s.isPrefixOf x.1) ++ moved
        }.put d e := by
  have below : ∀ x ∈ (t.below s).map (fun x : Location × Entry => (d ++ x.1.drop s.length, x.2)),
      d.length < x.1.length := by
    refine List.forall_mem_map.2 fun x mem => ?_
    obtain ⟨inside, ne⟩ := Bool.and_eq_true_iff.1 (List.mem_filter.1 mem).2
    obtain ⟨rest, hrest⟩ := List.isPrefixOf_iff_prefix.1 inside
    have hne : rest ≠ [] := by
      rintro rfl
      simp [← hrest] at ne
    have hlength := List.length_pos_iff.2 hne
    rw [← hrest, List.drop_left, List.length_append]
    omega
  unfold rename at done
  simp only [source, target] at done
  split at done
  · cases done
  · cases done
  · cases done
  · rename_i e found overDirectory _
    rw [if_neg ne] at done
    split_ifs at done
    cases done
    refine ⟨e, _, found, fun file directory => ?_, below, rfl⟩
    cases e with
    | directory => exact file rfl
    | file content => exact overDirectory content directory rfl

section Rename

variable (done : t.rename p q = .ok u) (source : t.locate p = .ok s) (target : t.locate q = .ok d)
  (ne : s ≠ d) (beside : s.length = d.length) {content : ByteArray}

include done source target ne

theorem here_of_rename : u.here = t.here := by
  obtain ⟨e, moved, -, -, -, rfl⟩ := eq_put_of_rename done source target ne
  rfl

include beside

/-- What is found after renaming, at these places and beside them. -/
theorem lookup?_of_rename (level : k.length = s.length) (outside : k.isPrefixOf t.here = false) :
    u.lookup? k = if k = d then t.lookup? s else if k = s then none else t.lookup? k := by
  obtain ⟨e, moved, found, -, below, rfl⟩ := eq_put_of_rename done source target ne
  have inside : s.isPrefixOf k = decide (k = s) := by
    rw [Bool.eq_iff_iff, List.isPrefixOf_iff_prefix, decide_eq_true_iff]
    exact ⟨fun h => (h.eq_of_length level.symm).symm, fun h => h ▸ List.prefix_rfl⟩
  have hmoved : moved.lookup k = none := by
    refine List.lookup_eq_none_iff.2 fun x hx => bne_iff_ne.2 fun hk => ?_
    have hlength := below x hx
    rw [← hk, level, beside] at hlength
    exact Nat.lt_irrefl _ hlength
  have before : t.lookup? k = t.entries.lookup k := if_neg (by simp [outside])
  unfold put
  rw [found, before, lookup?, if_neg (by simp [outside]), lookup_replaced, List.lookup_append,
    hmoved, lookup_filter _ (fun x => !s.isPrefixOf x), inside, Option.or_none]
  by_cases hk : k = s <;> simp [hk]

end Rename

end Files.Tree

namespace Audit.Journal

open Files

variable {j : Journal} {t u v : Tree} {l m m' : Location} {e : Event} {es : List Event}
  {files : List ByteArray} {content : ByteArray}

/-! ## The slots of a journal -/

/-- The slots of a journal have their places in a directory, whether they lead there or not. -/
structure Settled (j : Journal) (l : Location) (t : Tree) : Prop where
  named : j.path.withName j.path.name = j.path
  place : ∀ n, t.place (j.slot n) = j.slotAt l n

theorem settled_of_locate (leads : t.locate j.path = .ok m)
    (noDirectory : t.lookup? m ≠ some .directory) : j.Settled (t.place j.path.parent) t := by
  refine ⟨(Tree.name_of_locate leads noDirectory).1, fun n => ?_⟩
  cases n with
  | zero => exact (Tree.eq_place leads).symm.trans (Tree.place_of_locate leads noDirectory)
  | succ n =>
    rw [slotAt, slot, backup, t.place_withName _ (name_backup_ne j (n + 1)), Path.name_withName]

/-- If no slot leads anywhere, no backup moves. -/
theorem shift_of_lost {k : Nat} (lost : ∀ n m, t.locate (j.slot n) ≠ .ok m)
    (done : (j.shift k).on t = (.ok (), u)) : u = t := by
  induction k with
  | zero =>
    cases done
    rfl
  | succ k ih =>
    unfold Journal.shift at done
    obtain ⟨there, t', looked, done⟩ := Filing.on_bind_eq_ok.1 done
    obtain ⟨hthere, rfl⟩ := Filing.on_look_eq_ok.1 looked
    cases there with
    | false => exact ih done
    | true =>
      have absent : ∀ m, t.locate (j.backup (k + 1)) ≠ .ok m := lost (k + 1)
      unfold Tree.contains at hthere
      split at hthere
      · exact absurd ‹_› (absent _)
      · cases hthere
      · cases hthere

namespace Settled

section

variable {n i : Nat} (h : j.Settled l t)

include h

theorem congr (here : u.here = t.here) : j.Settled l u :=
  ⟨h.named, fun n => (Tree.place_congr here _).trans (h.place n)⟩

theorem slot_eq (n : Nat) : j.path.withName (j.slot n).name = j.slot n := by
  cases n with
  | zero => exact h.named
  | succ n => rw [slot, backup, Path.name_withName]

theorem eq_slotAt (leads : t.locate (j.slot n) = .ok m) : m = j.slotAt l n :=
  (Tree.eq_place leads).trans (h.place n)

/-- A slot that leads to its place does so whenever another slot leads anywhere. -/
theorem locate_slot (leads : t.locate (j.slot n) = .ok m) (here : u.here = t.here)
    (beside : u.locate (j.slot i) = .ok m') : u.locate (j.slot n) = .ok (j.slotAt l n) := by
  rw [← h.eq_slotAt leads]
  rw [← h.slot_eq n] at leads ⊢
  rw [← h.slot_eq i] at beside
  exact Tree.locate_beside leads here beside

/-- A backup that is not found is not at its place, if the path of the journal leads anywhere. -/
theorem lookup?_of_not_contains (absent : t.contains (j.backup (n + 1)) = .ok false)
    (leads : t.locate j.path = .ok m) : t.lookup? (j.slotAt l (n + 1)) = none := by
  have hslot : j.path.withName (j.slot (n + 1)).name = j.backup (n + 1) := h.slot_eq (n + 1)
  have speakable := hasNull_backup (Tree.hasNull_of_locate leads) (n + 1)
  rw [← h.named] at leads
  rw [← h.place (n + 1), ← h.slot_eq (n + 1)]
  exact Tree.lookup?_of_not_contains (hslot ▸ absent) (hslot ▸ speakable) leads

section Rename

variable (ne : n ≠ i) (done : t.rename (j.slot n) (j.slot i) = .ok u)

include ne done

theorem of_rename : u.here = t.here ∧ t.locate (j.slot n) = .ok (j.slotAt l n) ∧
    t.locate (j.slot i) = .ok (j.slotAt l i) := by
  obtain ⟨s, d, -, source, target, -⟩ := Tree.exists_of_rename done
  obtain rfl := h.eq_slotAt source
  obtain rfl := h.eq_slotAt target
  exact ⟨Tree.here_of_rename done source target fun same => ne (slotAt_injective j l same), source,
    target⟩

/-- What is found in a slot after renaming, if no directory was in it. -/
theorem lookup?_of_rename {k : Nat} (file : t.lookup? (j.slotAt l k) ≠ some .directory) :
    u.lookup? (j.slotAt l k) =
      if k = i then t.lookup? (j.slotAt l n) else if k = n then none
        else t.lookup? (j.slotAt l k) := by
  obtain ⟨-, source, target⟩ := h.of_rename ne done
  rw [Tree.lookup?_of_rename done source target (fun same => ne (slotAt_injective j l same))
    (by simp only [length_slotAt]) (by simp only [length_slotAt])
    (Tree.isPrefixOf_here_eq_false file)]
  simp only [(slotAt_injective j l).eq_iff]

/-- A file that is renamed to another slot is there, and where it was nothing is. -/
theorem file_of_rename (found : t.lookup? (j.slotAt l n) = some (.file content)) :
    u.lookup? (j.slotAt l i) = some (.file content) ∧ u.lookup? (j.slotAt l n) = none := by
  obtain ⟨-, source, target⟩ := h.of_rename ne done
  have free : t.lookup? (j.slotAt l i) ≠ some .directory := by
    obtain ⟨e, -, hn, noDirectory, -⟩ := Tree.eq_put_of_rename done source target
      fun same => ne (slotAt_injective j l same)
    rw [found] at hn
    cases hn
    exact noDirectory (by simp)
  constructor
  · rw [h.lookup?_of_rename ne done free, if_pos rfl, found]
  · rw [h.lookup?_of_rename ne done (by simp [found]), if_neg ne, if_pos rfl]

/-- A file in another slot stays where it is. -/
theorem file_beside_rename {k : Nat} (found : t.lookup? (j.slotAt l k) = some (.file content))
    (source : k ≠ n) (target : k ≠ i) : u.lookup? (j.slotAt l k) = some (.file content) := by
  rw [h.lookup?_of_rename ne done (by simp [found]), if_neg target, if_neg source, found]

end Rename

end

/-- Each of the first `k` backups moves on by one, and the file and the backups behind stay. -/
theorem shift {k : Nat} (h : j.Settled l t) (done : (j.shift k).on t = (.ok (), u))
    (leads : u.locate j.path = .ok m) : u.here = t.here ∧
      ∀ i content, t.lookup? (j.slotAt l i) = some (.file content) →
        (i = 0 ∨ k + 1 < i → u.lookup? (j.slotAt l i) = some (.file content)) ∧
        (0 < i → i ≤ k → u.locate (j.slot (i + 1)) = .ok (j.slotAt l (i + 1)) ∧
          u.lookup? (j.slotAt l (i + 1)) = some (.file content)) := by
  -- The last backup moves first. Where it comes to it stays, as do those that have moved before.
  induction k generalizing t with
  | zero =>
    cases done
    exact ⟨rfl, fun i content found => ⟨fun _ => found, by omega⟩⟩
  | succ k ih =>
    unfold Journal.shift at done
    obtain ⟨there, t', looked, done⟩ := Filing.on_bind_eq_ok.1 done
    obtain ⟨hthere, rfl⟩ := Filing.on_look_eq_ok.1 looked
    cases there with
    | true =>
      rw [if_pos rfl] at done
      obtain ⟨_, v, renamed, rest⟩ := Filing.on_bind_eq_ok.1 done
      have hv : t.rename (j.slot (k + 1)) (j.slot (k + 2)) = .ok v :=
        Filing.on_change_eq_ok.1 renamed
      have ne : k + 1 ≠ k + 2 := by omega
      obtain ⟨here, -, target⟩ := h.of_rename ne hv
      obtain ⟨here', moves⟩ := ih (h.congr here) rest
      refine ⟨here'.trans here, fun i content found => ⟨fun outside => ?_, fun _ bound => ?_⟩⟩
      · have there := h.file_beside_rename ne hv found (k := i) (by omega) (by omega)
        exact (moves i content there).1 (by omega)
      · by_cases last : i = k + 1
        · subst last
          have there := (h.file_of_rename ne hv found).1
          refine ⟨?_, (moves _ content there).1 (Or.inr (by omega))⟩
          exact h.locate_slot (i := 0) target (here'.trans here) leads
        · have there := h.file_beside_rename ne hv found last (by omega)
          exact (moves i content there).2 (by omega) (by omega)
    | false =>
      obtain ⟨here, moves⟩ := ih h done
      -- If the path of the journal led nowhere, it would not lead anywhere later on.
      have leads_t : t.locate j.path = .ok (j.slotAt l 0) := by
        by_contra lost
        have stuck : ∀ n m, t.locate (j.slot n) ≠ .ok m := fun n m reached =>
          lost ((h.congr here).locate_slot (n := 0) leads here.symm reached)
        obtain rfl := shift_of_lost stuck done
        exact stuck 0 m leads
      have absent := h.lookup?_of_not_contains hthere leads_t
      refine ⟨here, fun i content found => ⟨fun outside => ?_, fun _ bound => ?_⟩⟩
      · exact (moves i content found).1 (by omega)
      · have other : i ≠ k + 1 := by
          rintro rfl
          rw [absent] at found
          cases found
        exact (moves i content found).2 (by omega) (by omega)

end Settled

/-! ## The files that are written to -/

/-- Files with some contents are there: the file of a journal, and after it its first backups. -/
structure Filled (j : Journal) (l : Location) (t : Tree) (files : List ByteArray) : Prop where
  settled : j.Settled l t
  ne : files ≠ []
  leads : ∀ i < files.length, t.locate (j.slot i) = .ok (j.slotAt l i)
  found : ∀ i content, files[i]? = some content →
    t.lookup? (j.slotAt l i) = some (.file content)

theorem filled_of_appendLine {line : String} (done : (j.appendLine line).on t = (.ok (), v)) :
    ∃ l, j.Filled l v [t.contentAt (j.slotAt l 0) ++ encode (line ++ "\n")] := by
  obtain ⟨m, -, leads, found, -⟩ := appendLine_eq_ok done
  have settled := settled_of_locate leads (by simp [found])
  obtain rfl : m = j.slotAt _ 0 := settled.eq_slotAt leads
  refine ⟨_, settled, List.cons_ne_nil _ _, fun i hi => ?_, fun i content hi => ?_⟩
  · obtain rfl : i = 0 := Nat.lt_one_iff.1 hi
    exact leads
  · cases i with
    | zero =>
      cases hi
      exact found
    | succ i => cases hi

namespace Filled

section

variable (h : j.Filled l t files)

include h

theorem leads_path : t.locate j.path = .ok (j.slotAt l 0) := h.leads 0 (List.length_pos_iff.2 h.ne)

theorem found_path : t.lookup? (j.slotAt l 0) = some (.file (files.headD .empty)) := by
  refine h.found 0 _ ?_
  rw [← List.head?_eq_getElem?, List.head?_eq_some_head h.ne, List.headD_eq_head?_getD,
    List.head?_eq_some_head h.ne]
  rfl

theorem at?_slot {i : Nat} (hi : files[i]? = some content) :
    t.at? (j.slot i) = some (.file content) := by
  have bound : i < files.length := (List.getElem?_eq_some_iff.1 hi).1
  rw [Tree.at?, h.leads i bound]
  exact h.found i content hi

/-- A line is added to the file. -/
theorem appendLine {line : String} (done : (j.appendLine line).on t = (.ok (), v)) :
    j.Filled l v (grown files line :: files.tail) := by
  obtain ⟨m, keeps, leads, found, others⟩ := appendLine_eq_ok done
  have settled := h.settled.congr keeps.here
  obtain rfl : m = j.slotAt l 0 := settled.eq_slotAt (n := 0) leads
  have hcontent : t.contentAt (j.slotAt l 0) = files.headD .empty := by
    rw [Tree.contentAt, h.found_path]
  rw [hcontent] at found
  refine ⟨settled, List.cons_ne_nil _ _, fun i hi => ?_, fun i content hi => ?_⟩
  · rw [List.length_cons, List.length_tail] at hi
    exact keeps.locate (h.leads i (by have := List.length_pos_iff.2 h.ne; omega))
  · cases i with
    | zero =>
      cases hi
      exact found
    | succ i =>
      rw [List.getElem?_cons_succ, List.getElem?_tail] at hi
      exact others _ _ (slotAt_succ_ne_zero j l i) (h.found (i + 1) content hi)

/-- The file becomes the first backup, and a new one is started. Of a full row of backups the oldest
goes. -/
theorem rotate (done : j.rotate.on t = (.ok (), u)) :
    j.Filled l u (.empty :: files.take j.backups) := by
  unfold Journal.rotate at done
  obtain ⟨_, v, shifted, done⟩ := Filing.on_bind_eq_ok.1 done
  obtain ⟨_, w, renamed, done⟩ := Filing.on_bind_eq_ok.1 done
  have hw : v.rename (j.slot 0) (j.slot 1) = .ok w := Filing.on_change_eq_ok.1 renamed
  obtain ⟨m, keeps, leads, found, others⟩ := Tree.append_eq_ok (Filing.on_change_eq_ok.1 done)
  obtain ⟨s, -, -, source, -⟩ := Tree.exists_of_rename hw
  obtain ⟨here_v, moves⟩ := h.settled.shift shifted source
  have settled_v := h.settled.congr here_v
  obtain ⟨here_w, -, target⟩ := settled_v.of_rename Nat.zero_ne_one hw
  have here_u : u.here = v.here := keeps.here.trans here_w
  have settled := settled_v.congr here_u
  obtain rfl : m = j.slotAt l 0 := settled.eq_slotAt (n := 0) leads
  have file_v := (moves 0 _ h.found_path).1 (Or.inl rfl)
  obtain ⟨first, free⟩ := settled_v.file_of_rename Nat.zero_ne_one hw file_v
  have hempty : w.contentAt (j.slotAt l 0) = .empty := by rw [Tree.contentAt, free]
  rw [hempty, ByteArray.empty_append] at found
  have backup : ∀ n content, (files.take j.backups)[n]? = some content →
      v.locate (j.slot (n + 1)) = .ok (j.slotAt l (n + 1)) ∧
        w.lookup? (j.slotAt l (n + 1)) = some (.file content) := by
    intro n content hn
    rw [List.getElem?_take] at hn
    split_ifs at hn with bound
    cases n with
    | zero =>
      have hfirst := h.found_path
      rw [h.found 0 content hn] at hfirst
      rw [hfirst]
      exact ⟨target, first⟩
    | succ n =>
      obtain ⟨reached, there⟩ := (moves (n + 1) content (h.found _ _ hn)).2 (by omega) (by omega)
      exact ⟨reached, settled_v.file_beside_rename Nat.zero_ne_one hw there (by omega) (by omega)⟩
  refine ⟨settled, List.cons_ne_nil _ _, fun i hi => ?_, fun i content hi => ?_⟩
  · cases i with
    | zero => exact leads
    | succ n =>
      have hn : n < (files.take j.backups).length := Nat.lt_of_succ_lt_succ hi
      have reached := (backup n _ (List.getElem?_eq_getElem hn)).1
      exact settled_v.locate_slot reached here_u (i := 0) leads
  · cases i with
    | zero =>
      cases hi
      exact found
    | succ n => exact (others _ (slotAt_succ_ne_zero j l n)).trans (backup n content hi).2

end

end Filled

/-- Storing an event adds its line to the file and does to all files what is said of their
contents. -/
theorem filled_of_store (done : (j.store e).on t = (.ok (), u)) :
    ∃ v, (j.appendLine e.line).on t = (.ok (), v) ∧ ∀ l files,
      j.Filled l v (grown files e.line :: files.tail) → j.Filled l u (j.filesAfter files e) := by
  unfold Journal.store at done
  obtain ⟨_, v, appended, done⟩ := Filing.on_bind_eq_ok.1 done
  obtain ⟨size, v', looked, done⟩ := Filing.on_bind_eq_ok.1 done
  obtain ⟨measured, rfl⟩ := Filing.on_look_eq_ok.1 looked
  refine ⟨v, appended, fun l files filled => ?_⟩
  have hsize : size = (grown files e.line).size := by
    have file : v.at? j.path = some (.file (grown files e.line)) := filled.at?_slot (i := 0) rfl
    rw [Tree.size, file] at measured
    exact (Except.ok.inj measured).symm
  unfold filesAfter
  split at done
  · rename_i outgrown
    rw [if_pos (hsize ▸ outgrown)]
    exact filled.rotate done
  · rename_i fits
    cases done
    rw [if_neg (hsize ▸ fits)]
    exact filled

/-! ## What is added -/

/-- The contents of the file and of the backups that it has become, the newest first, after some
events have been added to what the file held. -/
def filled (j : Journal) (old : ByteArray) (es : List Event) : List ByteArray :=
  es.foldl j.filesAfter [old]

theorem filled_concat (j : Journal) (old : ByteArray) (es : List Event) (e : Event) :
    j.filled old (es ++ [e]) = j.filesAfter (j.filled old es) e := by
  rw [filled, List.foldl_append]
  rfl

/-- After some events were stored the files are there, whatever was there before. -/
theorem filled_of_stores (stores : j.Stores t es u) (ne : es ≠ []) :
    ∃ l, j.Filled l u (j.filled (t.contentAt (j.slotAt l 0)) es) := by
  induction es using List.reverseRecOn generalizing u with
  | nil => exact absurd rfl ne
  | append_singleton es e ih =>
    obtain ⟨w, before, last⟩ := stores_append.1 stores
    obtain ⟨u', stored, none⟩ := stores_cons.1 last
    cases none
    obtain ⟨v, appended, settle⟩ := filled_of_store stored
    by_cases first : es = []
    · subst first
      cases before
      obtain ⟨l, filled⟩ := filled_of_appendLine appended
      exact ⟨l, settle l [_] filled⟩
    · obtain ⟨l, filled⟩ := ih before first
      refine ⟨l, ?_⟩
      rw [filled_concat]
      exact settle l _ (filled.appendLine appended)

theorem filled_ne_nil (j : Journal) (old : ByteArray) (es : List Event) :
    j.filled old es ≠ [] := by
  induction es using List.reverseRecOn with
  | nil => exact List.cons_ne_nil _ _
  | append_singleton es e ih =>
    rw [filled_concat, filesAfter]
    split <;> exact List.cons_ne_nil _ _

theorem joined_append (files files' : List ByteArray) :
    joined (files ++ files') = joined files' ++ joined files := by
  induction files with
  | nil => exact ByteArray.append_empty.symm
  | cons b files ih => rw [List.cons_append, joined_cons, joined_cons, ih, ByteArray.append_assoc]

/-- One more line stands behind all others. -/
theorem joined_grown (ne : files ≠ []) (line : String) :
    joined (grown files line :: files.tail) = joined files ++ encode (line ++ "\n") := by
  obtain ⟨b, files, rfl⟩ := List.exists_cons_of_ne_nil ne
  rw [joined_cons, joined_cons, grown, ByteArray.append_assoc]
  rfl

/-- One behind the other the files hold what was in the first one and then the lines of all events,
but for the backups that went. None goes before there is one more than are kept. -/
theorem joined_filled (j : Journal) (old : ByteArray) (es : List Event) :
    ∃ lost, lost ++ joined (j.filled old es) = old ++ encode (lines es) ∧
      ((j.filled old es).length ≤ j.backups → lost = .empty) := by
  induction es using List.reverseRecOn with
  | nil =>
    have nothing : encode (lines []) = .empty := rfl
    have one : joined [old] = old := ByteArray.empty_append
    refine ⟨.empty, ?_, fun _ => rfl⟩
    rw [filled, List.foldl_nil, one, nothing, ByteArray.append_empty, ByteArray.empty_append]
  | append_singleton es e ih =>
    obtain ⟨lost, hlost, whole⟩ := ih
    have hgrown := joined_grown (j.filled_ne_nil old es) e.line
    have hlength : (grown (j.filled old es) e.line :: (j.filled old es).tail).length =
        (j.filled old es).length := by
      rw [List.length_cons, List.length_tail]
      exact Nat.succ_pred_eq_of_pos (List.length_pos_iff.2 (j.filled_ne_nil old es))
    rw [encode_lines_concat, ← ByteArray.append_assoc, ← hlost, ByteArray.append_assoc, ← hgrown,
      filled_concat, filesAfter]
    generalize grown (j.filled old es) e.line :: (j.filled old es).tail = files at hlength
    split
    · -- What is beyond the last backup goes.
      refine ⟨lost ++ joined (files.drop j.backups), ?_, fun few => ?_⟩
      · rw [joined_cons, ByteArray.append_empty, ByteArray.append_assoc, ← joined_append,
          List.take_append_drop]
      · rw [List.length_cons, List.length_take] at few
        rw [whole (by omega), List.drop_eq_nil_of_le (by omega)]
        rfl
    · exact ⟨lost, rfl, fun few => whole (hlength ▸ few)⟩

/-- As long as everything fits into it, there is one file. -/
theorem filled_of_fits {old : ByteArray}
    (fits : ((old ++ encode (lines es)).size : Int) ≤ j.maxBytes) :
    j.filled old es = [old ++ encode (lines es)] := by
  induction es using List.reverseRecOn with
  | nil =>
    have nothing : encode (lines []) = .empty := rfl
    rw [nothing, ByteArray.append_empty]
    rfl
  | append_singleton es e ih =>
    rw [encode_lines_concat, ← ByteArray.append_assoc] at fits ⊢
    have before : ((old ++ encode (lines es)).size : Int) ≤ j.maxBytes := by
      rw [ByteArray.size_append] at fits
      omega
    rw [filled_concat, ih before, filesAfter]
    exact if_neg (Int.not_lt.2 fits)

/-- Between two trees the lines of some events were added to a log, whose file is at a place. -/
structure Adds (j : Journal) (t : Tree) (es : List Event) (u : Tree) (l : Location) : Prop where
  /-- The path of the journal leads to the place. -/
  leads : u.locate j.path = .ok l
  /-- The file and the backups that it has become have their contents. -/
  found : ∀ i content, (j.filled (t.contentAt l) es)[i]? = some content →
    u.at? (j.slot i) = some (.file content)
  /-- Read one behind the other, they hold what was in the file and then all lines, and only whole
  backups at the front may have gone. -/
  whole : ∃ lost,
    lost ++ joined (j.filled (t.contentAt l) es) = t.contentAt l ++ encode (lines es) ∧
      ((j.filled (t.contentAt l) es).length ≤ j.backups → lost = .empty)
  /-- If there is room for all lines in the file, they are in it, behind what was there. -/
  room : ((t.contentAt l ++ encode (lines es)).size : Int) ≤ j.maxBytes →
    u.at? j.path = some (.file (t.contentAt l ++ encode (lines es)))

/-- Storing some events adds their lines. -/
theorem adds_of_stores (stores : j.Stores t es u) (ne : es ≠ []) : ∃ l, j.Adds t es u l := by
  obtain ⟨l, filled⟩ := filled_of_stores stores ne
  refine ⟨j.slotAt l 0, filled.leads_path, fun i content hi => filled.at?_slot hi,
    j.joined_filled _ es, fun fits => ?_⟩
  rw [filled_of_fits fits] at filled
  exact filled.at?_slot (i := 0) rfl

/-- Storing no events changes nothing. -/
theorem same_or_adds_of_stores (stores : j.Stores t es u) :
    es = [] ∧ u = t ∨ ∃ l, j.Adds t es u l := by
  cases es with
  | nil => exact Or.inl ⟨rfl, (Prod.mk.inj stores).2.symm⟩
  | cons e es => exact Or.inr (adds_of_stores stores (List.cons_ne_nil e es))

/-- A file in which nothing was before holds the lines and nothing else. -/
theorem Adds.at?_of_new {text : String} (adds : j.Adds t es u l) (new : t.contentAt l = .empty)
    (told : lines es = text) (fits : (text.utf8ByteSize : Int) ≤ j.maxBytes) :
    u.at? j.path = some (.file (encode text)) := by
  have room := adds.room
  rw [new, ByteArray.empty_append, told] at room
  exact room fits

end Audit.Journal

end Pinhole
