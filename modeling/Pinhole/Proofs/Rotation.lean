import Mathlib.Data.List.Induction
import Mathlib.Logic.Function.Basic
import Pinhole.Proofs.Digits
import Pinhole.Proofs.Faults
import Pinhole.Proofs.Records

/-!
# What rotation keeps

The events of a journal are divided into blocks: a block is full as soon as its lines are longer than
the limit, and the events since then are the live ones (`Journal.divide`). In a directory that was
empty at first there is one file for the live events and one for each of the latest full blocks, and
nothing else (`holds_of_logAll`).

So the files together hold the lines of the latest events, each of them whole and in order, and what
is missing are the oldest blocks as a whole. `rotation_keeps_latest` says so of every journal, as
long as all operations on files work.
-/

namespace Pinhole

/-! ## Places in a directory -/

namespace Files.Tree

variable {t u : Tree} {l m : Location} {p q : Path} {name : String}

/-- Names that follow others are walked from where these lead. -/
theorem walk_append (t : Tree) (l : Location) (names rest : List String) :
    t.walk l (names ++ rest) = (t.walk l names).bind fun m => t.walk m rest := by
  induction names generalizing l with
  | nil => rfl
  | cons name names ih =>
    rw [List.cons_append, walk, walk]
    cases t.lookup? l with
    | none => rfl
    | some e =>
      cases e with
      | file content => rfl
      | directory =>
        dsimp only
        split
        · rfl
        · exact ih _

/-- Where a walk along a path starts. -/
def start (t : Tree) (p : Path) : Location := if p.isAbsolute then [] else t.here

theorem locate_eq_ok_iff : t.locate p = .ok l ↔ p.hasNull = false ∧
    p.text.utf8ByteSize ≤ maxPathSize ∧ t.walk (t.start p) p.parts = .ok l := by
  unfold locate start
  cases p.hasNull with
  | true => simp
  | false =>
    by_cases long : maxPathSize < p.text.utf8ByteSize
    · simp [long, Nat.not_le.2 long]
    · simp [long, Nat.le_of_not_lt long]

theorem hasNull_of_locate (leads : t.locate p = .ok m) : p.hasNull = false :=
  (locate_eq_ok_iff.1 leads).1

/-- A walk that goes on by one name goes on from a directory. -/
theorem walk_concat {names : List String} : t.walk l (names ++ [name]) = .ok m ↔
    ∃ k, t.walk l names = .ok k ∧ t.lookup? k = some .directory ∧
      name.utf8ByteSize ≤ maxNameSize ∧ m = stepTo k name := by
  rw [walk_append]
  cases t.walk l names with
  | error o => simp [Except.bind]
  | ok k =>
    simp only [Except.bind, walk]
    split
    · simp [*]
    · simp [*]
    · split
      · simp [*, Nat.not_le.2 ‹_›]
      · simp_all [eq_comm]

/-- A name in a directory that is there leads one step from it, unless something is too long. -/
theorem locate_withName (parent : t.walk (t.start p) p.parent.parts = .ok l)
    (directory : t.lookup? l = some .directory) (speakable : (p.withName name).hasNull = false) :
    t.locate (p.withName name) = .ok (stepTo l name) ∨
      t.locate (p.withName name) = .error .tooLong := by
  have hparts : (p.withName name).parts = p.parent.parts ++ [name] := rfl
  have hstart : (if (p.withName name).isAbsolute then [] else t.here) = t.start p := rfl
  rw [locate, speakable, if_neg Bool.false_ne_true]
  split
  · exact Or.inr rfl
  rw [hparts, hstart, walk_append, parent]
  simp only [Except.bind, walk, directory]
  split
  · exact Or.inr rfl
  · exact Or.inl rfl

theorem stepTo_of_ne (ne : name ≠ "..") : stepTo l name = l ++ [name] := by
  rw [stepTo, if_neg (by simpa using ne)]

/-- Directories are at all places above a place. -/
def Above (t : Tree) (l : Location) : Prop := ∀ k, k <+: l → k ≠ l → t.lookup? k = some .directory

/-- A walk leads from directories to directories. -/
theorem Above.walk {names : List String} (above : t.Above l) (arrives : t.walk l names = .ok m) :
    t.Above m := by
  induction names generalizing l with
  | nil =>
    cases arrives
    exact above
  | cons name names ih =>
    rw [Tree.walk] at arrives
    split at arrives
    · cases arrives
    · cases arrives
    · rename_i directory
      split at arrives
      · cases arrives
      refine ih (fun k inside ne => ?_) arrives
      have reached : k <+: l → t.lookup? k = some .directory := fun inside => by
        by_cases hk : k = l
        · rw [hk, directory]
        · exact above k inside hk
      unfold stepTo at inside ne
      split at inside
      · exact reached (inside.trans (List.dropLast_prefix l))
      · rename_i down
        rw [if_neg down] at ne
        exact reached ((List.prefix_concat_iff.1 inside).resolve_left ne)

theorem lookup?_start (t : Tree) (p : Path) : t.lookup? (t.start p) = some .directory := by
  refine if_pos (List.isPrefixOf_iff_prefix.2 ?_)
  unfold start
  split
  · exact List.nil_prefix
  · exact List.prefix_rfl

theorem above_start (t : Tree) (p : Path) : t.Above (t.start p) := by
  intro k inside ne
  unfold start at inside ne
  split at inside
  · rename_i absolute
    rw [if_pos absolute] at ne
    exact absurd (List.prefix_nil.1 inside) ne
  · rw [lookup?, if_pos (List.isPrefixOf_iff_prefix.2 inside)]

/-- Above the place that a path leads to there are directories. -/
theorem above_of_locate (leads : t.locate p = .ok m) : t.Above m :=
  (t.above_start p).walk (locate_eq_ok_iff.1 leads).2.2

/-! ## The place of a path -/

/-- The place that a path leads to, if it leads anywhere. -/
def place (t : Tree) (p : Path) : Location := p.parts.foldl stepTo (t.start p)

theorem eq_foldl_of_walk {names : List String} (arrives : t.walk l names = .ok m) :
    m = names.foldl stepTo l := by
  induction names generalizing l with
  | nil => exact (Except.ok.inj arrives).symm
  | cons name names ih =>
    rw [walk] at arrives
    split at arrives
    · cases arrives
    · cases arrives
    · split at arrives
      · cases arrives
      exact ih arrives

theorem eq_place (leads : t.locate p = .ok l) : l = t.place p :=
  eq_foldl_of_walk (locate_eq_ok_iff.1 leads).2.2

theorem place_congr (here : u.here = t.here) (p : Path) : u.place p = t.place p := by
  simp only [place, start, here]

theorem place_withName (t : Tree) (p : Path) (down : name ≠ "..") :
    t.place (p.withName name) = t.place p.parent ++ [name] := by
  have hparts : (p.withName name).parts = p.parent.parts ++ [name] := rfl
  have hstart : t.start (p.withName name) = t.start p.parent := rfl
  rw [place, hparts, hstart, List.foldl_append, List.foldl_cons, List.foldl_nil, stepTo_of_ne down]
  rfl

/-- A path that leads to a file or to nothing ends with a name, and this name does not lead
upwards. -/
theorem name_of_locate (leads : t.locate p = .ok l) (noDirectory : t.lookup? l ≠ some .directory) :
    p.withName p.name = p ∧ p.name ≠ ".." := by
  obtain ⟨-, -, arrives⟩ := locate_eq_ok_iff.1 leads
  by_cases hparts : p.parts = []
  · -- The path of no names leads to the directory that it starts from.
    rw [hparts] at arrives
    cases arrives
    exact absurd (t.lookup?_start p) noDirectory
  · have hname : p.withName p.name = p := by
      rw [Path.withName, Path.name, List.getLast?_eq_some_getLast hparts]
      exact congrArg (Path.mk p.slashes) (List.dropLast_concat_getLast hparts)
    refine ⟨hname, fun up => ?_⟩
    have hsplit : p.parts = p.parent.parts ++ [".."] := by
      conv_lhs => rw [← hname, up]
      rfl
    rw [hsplit] at arrives
    obtain ⟨k, before, directory, -, rfl⟩ := walk_concat.1 arrives
    rw [stepTo, if_pos (by rfl)] at noDirectory
    -- Two dots lead to a directory.
    by_cases top : k.dropLast = k
    · exact noDirectory (top.symm ▸ directory)
    · exact noDirectory ((t.above_start p).walk before _ (List.dropLast_prefix k) top)

/-- A path that leads to a file or to nothing leads to its name in the directory above. -/
theorem place_of_locate (leads : t.locate p = .ok l) (noDirectory : t.lookup? l ≠ some .directory) :
    l = t.place p.parent ++ [p.name] := by
  obtain ⟨hname, down⟩ := name_of_locate leads noDirectory
  rw [eq_place leads, ← t.place_withName p down, hname]

/-- A file in a directory is opened at its place in it. -/
theorem locate_of_openFile_in {bytes : ByteArray} (parent : t.locate p.parent = .ok l)
    (opened : t.openFile p = .ok (m, bytes)) : m = l ++ [p.name] := by
  obtain ⟨leads, noDirectory⟩ := locate_of_openFile opened
  rw [place_of_locate leads noDirectory, eq_place parent]

/-- What is renamed is there, and both paths lead somewhere. -/
theorem exists_of_rename (done : t.rename p q = .ok u) :
    ∃ s d e, t.locate p = .ok s ∧ t.locate q = .ok d ∧ t.lookup? s = some e := by
  unfold rename at done
  cases hs : t.locate p with
  | error o => simp [hs] at done
  | ok s =>
    cases hd : t.locate q with
    | error o => simp [hs, hd] at done
    | ok d =>
      cases he : t.lookup? s with
      | none => simp [hs, hd, he] at done
      | some e => exact ⟨s, d, e, rfl, rfl, he⟩

/-- What is among the entries is found, or something else instead. -/
theorem lookup?_ne_none_of_mem {e : Entry} (h : (l, e) ∈ t.entries) : t.lookup? l ≠ none := by
  rw [lookup?]
  split
  · exact Option.some_ne_none _
  · intro hnone
    have other := List.lookup_eq_none_iff.1 hnone _ h
    simp at other

end Files.Tree

/-! ## Work without a fault -/

namespace Files.Filing

variable {α β : Type} {t u : Tree}

/-- Work in two parts has no fault if neither part has. -/
theorem on_bind_eq_ok {x : Filing α} {f : α → Filing β} {b : β} :
    (x >>= f).on t = (.ok b, u) ↔ ∃ a v, x.on t = (.ok a, v) ∧ (f a).on v = (.ok b, u) := by
  rw [on_bind]
  rcases x.on t with ⟨r, v⟩
  cases r with
  | ok a => simp
  | error e => simp

theorem on_look_eq_ok {f : Tree → Except Fault α} {a : α} :
    (look f).on t = (.ok a, u) ↔ f t = .ok a ∧ t = u := by
  rw [on_look, Prod.mk.injEq]

theorem on_change_eq_ok {f : Tree → Except Fault Tree} :
    (change f).on t = (.ok (), u) ↔ f t = .ok u := by
  rw [on_change]
  cases f t <;> simp

end Files.Filing

namespace Audit.Journal

open Files

variable {j : Journal} {t u : Tree} {l : Location} {e : Event}

/-! ## The files of a journal -/

/-- The name of a backup does not lead upwards. -/
theorem name_backup_ne (j : Journal) (n : Nat) : j.path.name ++ "." ++ toString n ≠ ".." := by
  intro h
  obtain ⟨c, hc⟩ := List.exists_mem_of_ne_nil _ (Nat.toDigits_ne_nil (b := 10) (n := n))
  have hchars := congrArg String.toList h
  rw [String.toList_append, Nat.toString_eq_repr, Nat.toList_repr] at hchars
  have hdot : c ∈ "..".toList := hchars ▸ List.mem_append_right _ hc
  have hdot : c = '.' := by simpa using hdot
  exact not_mem_toDigits (c := '.') rfl n (hdot ▸ hc)

/-- Different slots have different places. -/
theorem slotAt_injective (j : Journal) (l : Location) : Function.Injective (j.slotAt l) := by
  have backups {a b : Nat} (h : j.slotAt l (a + 1) = j.slotAt l (b + 1)) : a = b := by
    have hname : (j.slot (a + 1)).name = (j.slot (b + 1)).name := by simpa [slotAt] using h
    simp only [slot, backup, Path.name_withName, Nat.toString_eq_repr] at hname
    have hchars := congrArg String.toList hname
    simp only [String.toList_append, List.append_cancel_left_eq, Nat.toList_repr] at hchars
    exact Nat.succ.inj (eq_of_toDigits hchars)
  intro a b h
  cases a with
  | zero =>
    cases b with
    | zero => rfl
    | succ b => exact absurd h.symm (slotAt_succ_ne_zero j l b)
  | succ a =>
    cases b with
    | zero => exact absurd h (slotAt_succ_ne_zero j l a)
    | succ b => rw [backups h]

/-- The directory of a journal is there, and besides the file of the journal and its backups, with
their contents by number, nothing is in it. The file has the number 0. -/
structure Holds (j : Journal) (l : Location) (t : Tree) (c : Nat → Option ByteArray) : Prop where
  parent : t.locate j.path.parent = .ok l
  directory : t.lookup? l = some .directory
  file : t.locate j.path = .ok (j.slotAt l 0)
  found : ∀ n, t.lookup? (j.slotAt l n) = (c n).map .file
  only : ∀ k, l <+: k → k ≠ l → (∀ n, k ≠ j.slotAt l n) → t.lookup? k = none

/-- The contents after the first `k` backups have moved on by one. -/
def shifted (c : Nat → Option ByteArray) (k : Nat) : Nat → Option ByteArray
  | 0 => c 0
  | 1 => if k = 0 then c 1 else none
  | n + 2 => if n < k then c (n + 1) else c (n + 2)

theorem shifted_zero (c : Nat → Option ByteArray) : shifted c 0 = c := by
  funext n
  match n with
  | 0 | 1 | n + 2 => simp [shifted]

/-- Moving the last backup on first is the same as moving all of them on at once. -/
theorem shifted_update (c : Nat → Option ByteArray) (k : Nat) :
    shifted (Function.update (Function.update c (k + 2) (c (k + 1))) (k + 1) none) k =
      shifted c (k + 1) := by
  funext n
  match n with
  | 0 => simp [shifted]
  | 1 => cases k <;> simp [shifted]
  | n + 2 =>
    rcases Nat.lt_trichotomy n k with h | rfl | h
    · have hn : n ≠ k := by omega
      have hn' : n ≠ k + 1 := by omega
      simp [shifted, h, hn, hn', Nat.lt_succ_of_lt h]
    · simp [shifted]
    · have hn : ¬ n < k := by omega
      have hn' : ¬ n < k + 1 := by omega
      have hne : n + 1 ≠ k := by omega
      have hne' : n ≠ k := by omega
      simp [shifted, hn, hn', hne, hne']

/-- Whether an event makes the file outgrow its limit. -/
def outgrows (j : Journal) (e : Event) (t : Tree) : Bool :=
  match (do j.appendLine e.line; Filing.look (·.size j.path) : Filing Nat).on t with
  | (.ok size, _) => j.maxBytes < size
  | (.error _, _) => false

/-- The content of the first file with one more line; the file may not have been made yet. -/
def grown (files : List ByteArray) (line : String) : ByteArray :=
  files.headD .empty ++ encode (line ++ "\n")

/-- The contents of the files after one more event. -/
def filesAfter (j : Journal) (files : List ByteArray) (e : Event) : List ByteArray :=
  if j.maxBytes < (grown files e.line).size then
    .empty :: (grown files e.line :: files.tail).take j.backups
  else grown files e.line :: files.tail

namespace Holds

section Contents

variable {c : Nat → Option ByteArray} (h : j.Holds l t c)

include h

/-- What is found in the directory is the file or a backup. -/
theorem lookup?_eq_some_iff {k : Location} {x : Entry} (inside : l <+: k) (ne : k ≠ l) :
    t.lookup? k = some x ↔ ∃ n b, c n = some b ∧ k = j.slotAt l n ∧ x = .file b := by
  constructor
  · intro hk
    by_cases hslot : ∃ n, k = j.slotAt l n
    · obtain ⟨n, rfl⟩ := hslot
      rw [h.found, Option.map_eq_some_iff] at hk
      obtain ⟨b, hb, rfl⟩ := hk
      exact ⟨n, b, hb, rfl, rfl⟩
    · rw [h.only k inside ne (not_exists.1 hslot)] at hk
      cases hk
  · rintro ⟨n, b, hb, rfl, rfl⟩
    rw [h.found, hb]
    rfl

theorem vacant (n : Nat) : t.Vacant (j.slotAt l n) := by
  refine ⟨by rw [h.found]; cases c n <;> simp, fun x hx inside => ?_⟩
  rw [List.isPrefixOf_iff_prefix] at inside
  have inside_l : l <+: x.1 := (List.prefix_append l _).trans inside
  have hlength := inside.length_le
  rw [length_slotAt] at hlength
  have ne : x.1 ≠ l := fun e => by rw [e] at hlength; omega
  -- An entry that is found in the directory is in a slot, and slots are beside one another.
  obtain ⟨found, hfound⟩ := Option.ne_none_iff_exists'.1 (Tree.lookup?_ne_none_of_mem hx)
  obtain ⟨m, -, -, hm, -⟩ := (h.lookup?_eq_some_iff inside_l ne).1 hfound
  exact (inside.eq_of_length (by rw [hm, length_slotAt, length_slotAt])).symm

/-- Every slot leads to its place, unless its name or its path is too long. -/
theorem locate (n : Nat) :
    t.locate (j.slot n) = .ok (j.slotAt l n) ∨ t.locate (j.slot n) = .error .tooLong := by
  cases n with
  | zero => exact Or.inl h.file
  | succ n =>
    have speakable : j.path.hasNull = false := Tree.hasNull_of_locate h.file
    have hname : j.slotAt l (n + 1) = l ++ [j.path.name ++ "." ++ toString (n + 1)] := by
      simp [slotAt, slot, backup]
    have walks := (Tree.locate_eq_ok_iff.1 h.parent).2.2
    have step := Tree.locate_withName walks h.directory (hasNull_backup speakable (n + 1))
    rwa [Tree.stepTo_of_ne (name_backup_ne j (n + 1)), ← hname] at step

theorem place {n : Nat} {m : Location} (leads : t.locate (j.slot n) = .ok m) :
    m = j.slotAt l n := by
  rcases h.locate n with hn | hn
  · exact Except.ok.inj (leads.symm.trans hn)
  · rw [leads] at hn
    cases hn

theorem contains {n : Nat} {b : Bool} (done : t.contains (j.slot n) = .ok b) :
    b = (c n).isSome := by
  rcases h.locate n with hn | hn
  · simp only [Tree.contains, hn, h.found, Except.ok.injEq] at done
    rw [← done, Option.isSome_map]
  · simp [Tree.contains, hn] at done

/-- A change of files that leaves the rest of the tree alone. -/
theorem of_keeps {d : Nat → Option ByteArray} (keeps : t.Keeps u)
    (found : ∀ n, u.lookup? (j.slotAt l n) = (d n).map .file)
    (others : ∀ k, (∀ n, k ≠ j.slotAt l n) → u.lookup? k = t.lookup? k) : j.Holds l u d where
  parent := keeps.locate h.parent
  directory := keeps.directory l h.directory
  file := keeps.locate h.file
  found := found
  only k inside ne outside := (others k outside).trans (h.only k inside ne outside)

/-- Writing the file changes its content. -/
theorem put (b : ByteArray) :
    j.Holds l (t.put (j.slotAt l 0) (.file b)) (Function.update c 0 (some b)) := by
  have vacant := h.vacant 0
  refine h.of_keeps (Tree.keeps_put vacant.lookup b) (fun n => ?_) fun k outside => ?_
  · rw [Tree.lookup?_put t _ _ vacant.apart]
    by_cases hn : n = 0
    · rw [hn, if_pos rfl, Function.update_self]
      rfl
    · rw [if_neg fun e => hn (slotAt_injective j l e), Function.update_of_ne hn]
      exact h.found n
  · rw [Tree.lookup?_put t _ _ vacant.apart, if_neg (outside 0)]

/-- There is room for files in the directory. -/
theorem room (n : Nat) : t.isDirectoryAt (j.slotAt l n).dropLast = true := by
  rw [slotAt, List.dropLast_concat, Tree.isDirectoryAt, h.directory]
  rfl

/-- Renaming one slot to another moves its content there. -/
theorem rename {m n : Nat} (ne : m ≠ n) (done : t.rename (j.slot m) (j.slot n) = .ok u) :
    j.Holds l u (Function.update (Function.update c n (c m)) m none) := by
  obtain ⟨s, d, x, hs, hd, hx⟩ := Tree.exists_of_rename done
  obtain rfl := h.place hs
  obtain rfl := h.place hd
  have hcontent := hx
  rw [h.found, Option.map_eq_some_iff] at hcontent
  obtain ⟨content, hc, rfl⟩ := hcontent
  have moved := Tree.rename_eq_moved hs hd (h.vacant m) (h.vacant n) hx (h.room n)
    fun e => ne (slotAt_injective j l e)
  obtain rfl := Except.ok.inj (done.symm.trans moved)
  refine h.of_keeps (Tree.keeps_moved (h.vacant m) (h.vacant n) content) (fun i => ?_)
    fun k outside => ?_
  · rw [Tree.lookup?_moved (h.vacant m) (h.vacant n)]
    simp only [(slotAt_injective j l).eq_iff, Function.update_apply, h.found, hc]
    by_cases him : i = m
    · simp [him, ne]
    · by_cases hin : i = n
      · simp [hin, ne.symm]
      · simp [him, hin]
  · rw [Tree.lookup?_moved (h.vacant m) (h.vacant n), if_neg (outside n), if_neg (outside m)]

/-- The file can be added to. -/
theorem append (more : ByteArray) :
    t.append j.path more = .ok (t.put (j.slotAt l 0) (.file ((c 0).getD .empty ++ more))) := by
  unfold Tree.append Tree.openFile
  simp only [h.file, h.found 0]
  cases c 0 with
  | none =>
    simp only [Option.map_none, h.room 0, if_true]
    rfl
  | some content => rfl

end Contents

/-- Moving the first `k` backups on. -/
theorem shift {c : Nat → Option ByteArray} {k : Nat} (h : j.Holds l t c)
    (closed : ∀ i < k, c (i + 1) = none → c (i + 2) = none)
    (done : (j.shift k).on t = (.ok (), u)) : j.Holds l u (shifted c k) := by
  -- The last backup moves first, so each one that is there finds its new slot free or full, and
  -- none of those that are still to move is lost.
  induction k generalizing t c with
  | zero =>
    cases done
    rwa [shifted_zero]
  | succ k ih =>
    unfold Journal.shift at done
    obtain ⟨there, v, looked, done⟩ := Filing.on_bind_eq_ok.1 done
    obtain ⟨hthere, rfl⟩ := Filing.on_look_eq_ok.1 looked
    obtain rfl : there = (c (k + 1)).isSome := h.contains hthere
    obtain ⟨v, hv, rest⟩ : ∃ v,
        j.Holds l v (Function.update (Function.update c (k + 2) (c (k + 1))) (k + 1) none) ∧
          (j.shift k).on v = (.ok (), u) := by
      cases hc : c (k + 1) with
      | none =>
        rw [hc] at done
        have hfree : Function.update c (k + 2) none = c := by
          rw [← closed k (Nat.lt_succ_self k) hc, Function.update_eq_self]
        have hsame : Function.update c (k + 1) none = c := by rw [← hc, Function.update_eq_self]
        exact ⟨t, by rwa [hfree, hsame], done⟩
      | some content =>
        rw [hc, Option.isSome_some, if_pos rfl] at done
        obtain ⟨_, v, renamed, rest⟩ := Filing.on_bind_eq_ok.1 done
        have hr : t.rename (j.slot (k + 1)) (j.slot (k + 2)) = .ok v :=
          Filing.on_change_eq_ok.1 renamed
        exact ⟨v, hc ▸ h.rename (by omega) hr, rest⟩
    rw [← shifted_update]
    refine ih hv (fun i hi hnone => ?_) rest
    have hne : i ≠ k := by omega
    have hne' : i ≠ k + 1 := by omega
    simp only [Function.update_apply, Nat.add_right_cancel_iff, hne, hne', if_false] at hnone ⊢
    split
    · rfl
    · exact closed i (by omega) (by simpa using hnone)

section Files

variable {files : List ByteArray} (h : j.Holds l t (files[·]?))

include h

/-- The file becomes the first backup, and a new one is started. Of a full row of backups the oldest
goes. -/
theorem rotate (bound : files.length ≤ j.backups + 1)
    (done : j.rotate.on t = (.ok (), u)) :
    j.Holds l u ((ByteArray.empty :: files.take j.backups)[·]?) := by
  have positive := j.backups_pos
  have closed : ∀ i < j.backups - 1, files[i + 1]? = none → files[i + 2]? = none := by
    intro i _ hnone
    rw [List.getElem?_eq_none_iff] at hnone ⊢
    omega
  unfold Journal.rotate at done
  obtain ⟨_, v, shifted_v, done⟩ := Filing.on_bind_eq_ok.1 done
  obtain ⟨_, w, renamed, done⟩ := Filing.on_bind_eq_ok.1 done
  have shifts := h.shift closed shifted_v
  have hw : v.rename (j.slot 0) (j.slot 1) = .ok w := Filing.on_change_eq_ok.1 renamed
  have renames := shifts.rename Nat.zero_ne_one hw
  rw [Filing.on_change_eq_ok, renames.append] at done
  cases done
  convert renames.put _ using 1
  funext n
  match n with
  | 0 => simp
  | 1 => simp [shifted, positive]
  | n + 2 =>
    have hmoved : (files.take j.backups)[n + 1]? =
        if n < j.backups - 1 then files[n + 1]? else files[n + 2]? := by
      split
      · rw [List.getElem?_take_of_lt (by omega)]
      · rw [List.getElem?_take_eq_none (by omega), List.getElem?_eq_none (by omega)]
    simpa [shifted] using hmoved

/-- A line is added to the file. -/
theorem on_appendLine (line : String) :
    ∃ v, (j.appendLine line).on t = (.ok (), v) ∧
      j.Holds l v ((grown files line :: files.tail)[·]?) ∧
      v.size j.path = .ok (grown files line).size := by
  have hfirst : (files[0]?).getD .empty = files.headD .empty := by
    rw [List.headD_eq_head?_getD, List.head?_eq_getElem?]
  have happend := h.append (encode (line ++ "\n"))
  have hput := h.put (grown files line)
  rw [hfirst, ← grown] at happend
  have hfiles : Function.update (files[·]?) 0 (some (grown files line)) =
      ((grown files line :: files.tail)[·]?) := by
    funext n
    cases n with
    | zero => rfl
    | succ n => simp
  rw [hfiles] at hput
  refine ⟨_, ?_, hput, ?_⟩
  · rw [appendLine, Filing.on_bind, Filing.on_attempt,
      Tree.makeDirectories_of_directory h.parent h.directory]
    exact Filing.on_change_eq_ok.2 happend
  · simp only [Tree.size, Tree.at?, hput.file, hput.found]
    rfl

/-- Storing an event that can be stored turns the contents of the files into those after it. -/
theorem store (bound : files.length ≤ j.backups + 1) (done : (j.store e).on t = (.ok (), u)) :
    j.Holds l u ((j.filesAfter files e)[·]?) ∧
      (j.outgrows e t = true ↔ j.maxBytes < (grown files e.line).size) := by
  obtain ⟨v, hv, hfiles, hsize⟩ := h.on_appendLine e.line
  have bound' : (grown files e.line :: files.tail).length ≤ j.backups + 1 := by
    rw [List.length_cons, List.length_tail]
    omega
  unfold Journal.store at done
  simp only [Filing.on_bind, hv, Filing.on_look, hsize] at done
  constructor
  · unfold filesAfter
    split at done
    · rename_i outgrown
      rw [if_pos outgrown]
      exact hfiles.rotate bound' done
    · rename_i fits
      cases done
      rw [if_neg fits]
      exact hfiles
  · unfold outgrows
    simp only [Filing.on_bind, hv, Filing.on_look, hsize, decide_eq_true_eq]

end Files

end Holds

/-! ## Events in blocks -/

/-- The lines of some events. -/
def lines (es : List Event) : String := .join (es.map (·.line ++ "\n"))

/-- Events in blocks: those that are live, the oldest first, and the full blocks, the newest
first. -/
structure Blocks where
  live : List Event := []
  full : List (List Event) := []

/-- One more event is live. If the lines are longer than the limit then, the block is full. -/
def addTo (j : Journal) (b : Blocks) (e : Event) : Blocks :=
  if j.maxBytes < (encode (lines (b.live ++ [e]))).size then
    { live := [], full := (b.live ++ [e]) :: b.full }
  else { b with live := b.live ++ [e] }

/-- Some events in blocks. -/
def divide (j : Journal) (es : List Event) : Blocks := es.foldl j.addTo {}

/-- The contents of the files that blocks are kept in: one for the live events, and one for each of
the latest full blocks. -/
def filesOf (j : Journal) (b : Blocks) : List ByteArray :=
  (b.live :: b.full.take j.backups).map fun es => encode (lines es)

section Blocks

variable {b : Blocks} {es : List Event} {files : List ByteArray}

theorem encode_append (s s' : String) : encode (s ++ s') = encode s ++ encode s' := by
  simp [encode]

theorem lines_append (es fs : List Event) : lines (es ++ fs) = lines es ++ lines fs := by
  simp [lines, String.join_append]

theorem encode_lines_concat (es : List Event) (e : Event) :
    encode (lines (es ++ [e])) = encode (lines es) ++ encode (e.line ++ "\n") := by
  rw [lines_append, encode_append]
  rfl

theorem divide_concat (j : Journal) (es : List Event) (e : Event) :
    j.divide (es ++ [e]) = j.addTo (j.divide es) e := by
  rw [divide, List.foldl_append]
  rfl

/-- No event is lost in blocks. -/
theorem flatten_divide (j : Journal) (es : List Event) :
    (j.divide es).full.reverse.flatten ++ (j.divide es).live = es := by
  induction es using List.reverseRecOn with
  | nil => rfl
  | append_singleton es e ih =>
    rw [divide_concat, addTo]
    split
    · simp only [List.reverse_cons, List.flatten_append, List.flatten_cons, List.flatten_nil,
        List.append_nil]
      rw [← List.append_assoc, ih]
    · rw [← List.append_assoc, ih]

/-- The live events are within the limit. -/
theorem size_live_le (bound : 0 ≤ j.maxBytes) (es : List Event) :
    ((encode (lines (j.divide es).live)).size : Int) ≤ j.maxBytes := by
  induction es using List.reverseRecOn with
  | nil => exact bound
  | append_singleton es e ih =>
    rw [divide_concat, addTo]
    split
    · exact bound
    · rename_i fits
      exact Int.not_lt.1 fits

/-- Every full block is over the limit. -/
theorem lt_size_of_mem_full {block : List Event} (mem : block ∈ (j.divide es).full) :
    j.maxBytes < (encode (lines block)).size := by
  induction es using List.reverseRecOn with
  | nil => cases mem
  | append_singleton es e ih =>
    rw [divide_concat, addTo] at mem
    split at mem
    · rename_i outgrown
      rcases List.mem_cons.1 mem with rfl | mem
      · exact outgrown
      · exact ih mem
    · exact ih mem

theorem take_cons_take {α : Type} (x : α) (xs : List α) (n : Nat) :
    (x :: xs.take n).take n = (x :: xs).take n := by
  cases n <;> simp [List.take_take]

/-- The latest backups after one more event are the same ones, or what was live is the first of
them. Then only the oldest one of a full row goes. -/
theorem take_full_concat (j : Journal) (es : List Event) (e : Event) :
    (j.divide (es ++ [e])).full.take j.backups = (j.divide es).full.take j.backups ∨
      (j.divide (es ++ [e])).live = [] ∧ (j.divide (es ++ [e])).full.take j.backups =
        (((j.divide es).live ++ [e]) :: (j.divide es).full.take j.backups).take j.backups := by
  rw [divide_concat, addTo]
  split
  · exact Or.inr ⟨rfl, (take_cons_take _ _ _).symm⟩
  · exact Or.inl rfl

/-- Some files are those of blocks, but for an empty one that may not have been made yet. -/
structure KeptIn (j : Journal) (b : Blocks) (files : List ByteArray) : Prop where
  first : files.headD .empty = encode (lines b.live)
  backups : files.tail = (b.full.take j.backups).map fun es => encode (lines es)

theorem keptIn_filesOf (j : Journal) (b : Blocks) : j.KeptIn b (j.filesOf b) := ⟨rfl, rfl⟩

theorem KeptIn.length_le (kept : j.KeptIn b files) : files.length ≤ j.backups + 1 := by
  have hlength := congrArg List.length kept.backups
  simp only [List.length_tail, List.length_map, List.length_take] at hlength
  omega

/-- One more line in the file is one more live event. -/
theorem KeptIn.grown_eq (kept : j.KeptIn b files) (e : Event) :
    grown files e.line = encode (lines (b.live ++ [e])) := by
  rw [grown, kept.first, encode_lines_concat]

/-- Storing an event does to files what adding it does to blocks. -/
theorem KeptIn.filesAfter_eq (kept : j.KeptIn b files) (e : Event) :
    j.filesAfter files e = j.filesOf (j.addTo b e) := by
  rw [filesAfter, addTo, kept.grown_eq, kept.backups]
  split
  · rw [List.map_take, take_cons_take, filesOf, List.map_cons, List.map_take]
    rfl
  · rfl

end Blocks

/-! ## Logging -/

/-- The journal at a path with limits of its own. -/
def limited (path : Path) (maxBytes count : Int) : Journal where
  path := path
  maxBytes := maxBytes
  backups := backupCount count
  backups_pos := backupCount_pos count

/-- Logs one more event, if every operation on files works. The number counts the rotations. -/
def logNext (j : Journal) (s : Tree × Nat) (e : Event) : Option (Tree × Nat) :=
  match j.log e s.1 with
  | (.ok none, u) => some (u, if j.outgrows e s.1 then s.2 + 1 else s.2)
  | _ => none

/-- Logs some events one after the other, if every operation on files works: what becomes of the
files, and how many rotations there are. -/
def logAll (j : Journal) (t : Tree) (es : List Event) : Option (Tree × Nat) :=
  es.foldlM j.logNext (t, 0)

/-- The directory of a journal is there and empty. -/
structure Fresh (j : Journal) (l : Location) (t : Tree) : Prop where
  parent : t.locate j.path.parent = .ok l
  directory : t.lookup? l = some .directory
  empty : ∀ k, l <+: k → k ≠ l → t.lookup? k = none

/-- If an event can be stored in a directory that is empty, the file belongs into it. -/
theorem Fresh.holds (fresh : j.Fresh l t) (done : (j.store e).on t = (.ok (), u)) :
    j.Holds l t (([] : List ByteArray)[·]?) where
  parent := fresh.parent
  directory := fresh.directory
  file := by
    unfold Journal.store appendLine at done
    obtain ⟨_, v, appended, -⟩ := Filing.on_bind_eq_ok.1 done
    obtain ⟨_, w, made, appended⟩ := Filing.on_bind_eq_ok.1 appended
    rw [Filing.on_attempt, Tree.makeDirectories_of_directory fresh.parent fresh.directory] at made
    cases made
    rw [Filing.on_change_eq_ok, Tree.append] at appended
    cases opened : t.openFile j.path with
    | error f =>
      rw [opened] at appended
      cases appended
    | ok place =>
      have hplace := Tree.locate_of_openFile_in fresh.parent opened
      rw [(Tree.locate_of_openFile opened).1, hplace]
      rfl
  found n := fresh.empty _ (List.prefix_append l _) fun h => by
    have hlength := congrArg List.length h
    rw [length_slotAt] at hlength
    omega
  only k inside ne _ := fresh.empty k inside ne

section Log

variable {es : List Event} {files : List ByteArray} {v : Tree} {n : Nat}

theorem logAll_concat (j : Journal) (t : Tree) (es : List Event) (e : Event) :
    j.logAll t (es ++ [e]) = (j.logAll t es).bind (j.logNext · e) := by
  simp [logAll, Option.bind_eq_bind]

theorem log_of_logNext {m : Nat} (next : j.logNext (u, m) e = some (v, n)) :
    j.log e u = (.ok none, v) ∧ n = if j.outgrows e u then m + 1 else m := by
  unfold logNext at next
  split at next
  · rename_i w hw
    cases next
    exact ⟨hw, rfl⟩
  · cases next

/-- An event that was logged without a warning was stored. -/
theorem store_of_log (enabled : j.enabled = true) (done : j.log e u = (.ok none, v)) :
    (j.store e).on u = (.ok (), v) := by
  rw [log, if_pos enabled] at done
  rcases hstore : (j.store e).on u with ⟨r, w⟩
  rw [hstore] at done
  cases r with
  | ok x =>
    cases done
    rfl
  | error f =>
    dsimp only at done
    split at done <;> cases done

/-- One more event keeps the files those of the blocks, and there is a rotation exactly when a block
is full. -/
theorem Holds.log (h : j.Holds l u (files[·]?)) (kept : j.KeptIn (j.divide es) files)
    (done : (j.store e).on u = (.ok (), v)) :
    j.Holds l v ((j.filesOf (j.divide (es ++ [e])))[·]?) ∧
      (j.divide (es ++ [e])).full.length =
        if j.outgrows e u then (j.divide es).full.length + 1 else (j.divide es).full.length := by
  obtain ⟨hfiles, houtgrows⟩ := h.store kept.length_le done
  rw [kept.grown_eq] at houtgrows
  rw [divide_concat, ← kept.filesAfter_eq]
  refine ⟨hfiles, ?_⟩
  rw [addTo, ← if_congr houtgrows rfl rfl]
  split <;> rfl

/-- However many events were logged, the files in the directory are those of the blocks, and as many
blocks are full as there were rotations. -/
theorem holds_of_logAll (enabled : j.enabled = true) (fresh : j.Fresh l t)
    (logged : j.logAll t es = some (u, n)) :
    (j.divide es).full.length = n ∧
      (es = [] ∧ u = t ∨ es ≠ [] ∧ j.Holds l u ((j.filesOf (j.divide es))[·]?)) := by
  induction es using List.reverseRecOn generalizing u n with
  | nil =>
    cases logged
    exact ⟨rfl, Or.inl ⟨rfl, rfl⟩⟩
  | append_singleton es e ih =>
    rw [logAll_concat] at logged
    obtain ⟨⟨w, m⟩, before, next⟩ := Option.bind_eq_some_iff.1 logged
    obtain ⟨done, rfl⟩ := log_of_logNext next
    have stored := store_of_log enabled done
    obtain ⟨rfl, now⟩ := ih before
    -- Before the first event there is no file yet, and after any other there is one.
    obtain ⟨files, hfiles, kept⟩ : ∃ files, j.Holds l w (files[·]?) ∧
        j.KeptIn (j.divide es) files := by
      rcases now with ⟨rfl, rfl⟩ | ⟨-, hfiles⟩
      · exact ⟨[], fresh.holds stored, rfl, by simp [divide]⟩
      · exact ⟨_, hfiles, keptIn_filesOf j _⟩
    obtain ⟨hnext, hlength⟩ := hfiles.log kept stored
    exact ⟨hlength, Or.inr ⟨by simp, hnext⟩⟩

end Log

/-- The contents of some files one after the other, the last one first. -/
def joined (files : List ByteArray) : ByteArray := files.reverse.foldl (· ++ ·) .empty

theorem joined_cons (b : ByteArray) (files : List ByteArray) :
    joined (b :: files) = joined files ++ b := by
  simp [joined]

/-- The files of blocks hold the lines of all their events. -/
theorem joined_filesOf (j : Journal) (b : Blocks) :
    joined (j.filesOf b) = encode (lines ((b.full.take j.backups).reverse.flatten ++ b.live)) := by
  have hbackups (blocks : List (List Event)) :
      joined (blocks.map fun es => encode (lines es)) = encode (lines blocks.reverse.flatten) := by
    induction blocks with
    | nil => rfl
    | cons block blocks ih =>
      rw [List.map_cons, joined_cons, ih, ← encode_append, ← lines_append]
      simp
  rw [filesOf, List.map_cons, joined_cons, hbackups, ← encode_append, ← lines_append]

/-- Let a journal be kept at some path, with a limit that is not negative and any number of backups,
one at least. In a directory that was empty, let events be logged without any operation on files
failing. Then

* the files in the directory are the journal's own and its backups 1 to `m`, where `m` is the number
  of rotations or, if there were more, the number of backups that are kept;
* from the last backup to the file itself they hold the lines of the latest events, each of them once
  and in order, and the events before those are whole blocks that each were the oldest backup of a
  full row when they went. As long as there were not more rotations than backups are kept, none is
  missing;
* the file is within the limit, and every backup is over it. -/
theorem rotation_keeps_latest (path : Path) {maxBytes : Int} (bound : 0 ≤ maxBytes) (count : Int)
    {l : Location} {t u : Tree} {es : List Event} {n : Nat}
    (fresh : (limited path maxBytes count).Fresh l t)
    (logged : (limited path maxBytes count).logAll t es = some (u, n)) (ne : es ≠ []) :
    let j := limited path maxBytes count
    let b := j.divide es
    let backups := b.full.take j.backups
    let latest := backups.reverse.flatten ++ b.live
    (j.backups : Int) = max 1 count ∧ backups.length = min n j.backups ∧
    (∀ k x, l <+: k → k ≠ l → (u.lookup? k = some x ↔
      ∃ i bytes, (j.filesOf b)[i]? = some bytes ∧ k = j.slotAt l i ∧ x = .file bytes)) ∧
    joined (j.filesOf b) = encode (lines latest) ∧
    (b.full.drop j.backups).reverse.flatten ++ latest = es ∧
    (n ≤ j.backups → latest = es) ∧
    (∀ e, let next := j.divide (es ++ [e])
      next.full.take j.backups = backups ∨
        next.live = [] ∧ next.full.take j.backups = ((b.live ++ [e]) :: backups).take j.backups) ∧
    (encode (lines b.live)).size ≤ maxBytes ∧
    ∀ block ∈ backups, maxBytes < (encode (lines block)).size := by
  intro j b backups latest
  obtain ⟨hlength, ⟨none, -⟩ | ⟨-, hfiles⟩⟩ := holds_of_logAll rfl fresh logged
  · exact absurd none ne
  have hes : (b.full.drop j.backups).reverse.flatten ++ latest = es := by
    rw [← List.append_assoc, ← List.flatten_append, ← List.reverse_append, List.take_append_drop]
    exact j.flatten_divide es
  refine ⟨?_, ?_, fun k x inside ne => hfiles.lookup?_eq_some_iff inside ne, j.joined_filesOf b,
    hes, fun few => ?_, j.take_full_concat es, size_live_le bound es, fun block mem => ?_⟩
  · exact Int.toNat_of_nonneg (by omega)
  · rw [List.length_take, hlength, Nat.min_comm]
  · have hnone : b.full.drop j.backups = [] := List.drop_eq_nil_of_le (hlength ▸ few)
    rw [← hes, hnone]
    rfl
  · exact lt_size_of_mem_full (List.mem_of_mem_take mem)

/-- One backup is kept though none was asked for. No line is within the limit, so that every event
becomes a backup at once, and of two events the first one is gone. -/
theorem rotation_keeps_one_of_two :
    let j := limited (.ofText "audit.log") 0 0
    let event (n : Int) : Event := .holePunched ⟨0, "now"⟩ .success "tcp" (.int n) ""
    ∃ u, j.logAll {} [event 1, event 2] = some (u, 2) ∧
      ∀ k x, k ≠ [] → (u.lookup? k = some x ↔ k = ["audit.log"] ∧ x = .file .empty ∨
        k = ["audit.log.1"] ∧ x = .file (encode (lines [event 2]))) := by
  intro j event
  have works : (j.logAll {} [event 1, event 2]).map (·.2) = some 2 := by decide +kernel
  obtain ⟨⟨u, n⟩, logged, rfl⟩ := Option.map_eq_some_iff.1 works
  have fresh : j.Fresh [] {} := by
    refine ⟨rfl, rfl, fun k _ ne => ?_⟩
    cases k with
    | nil => exact absurd rfl ne
    | cons name names => rfl
  have files : j.filesOf (j.divide [event 1, event 2]) = [.empty, encode (lines [event 2])] := by
    decide +kernel
  obtain ⟨-, -, found, -⟩ :=
    rotation_keeps_latest (.ofText "audit.log") (by decide) 0 fresh logged nofun
  refine ⟨u, logged, fun k x ne => (found k x List.nil_prefix ne).trans ?_⟩
  change (∃ i bytes, (j.filesOf (j.divide _))[i]? = some bytes ∧ _) ↔ _
  rw [files]
  generalize encode (lines [event 2]) = backup
  have name : j.slotAt [] 1 = ["audit.log.1"] := by decide +kernel
  constructor
  · rintro ⟨i, bytes, hi, rfl, rfl⟩
    match i with
    | 0 =>
      cases hi
      exact Or.inl ⟨rfl, rfl⟩
    | 1 =>
      cases hi
      exact Or.inr ⟨name, rfl⟩
    | i + 2 => cases hi
  · rintro (⟨rfl, rfl⟩ | ⟨rfl, rfl⟩)
    · exact ⟨0, _, rfl, rfl, rfl⟩
    · exact ⟨1, _, rfl, name.symm, rfl⟩

end Audit.Journal

end Pinhole
