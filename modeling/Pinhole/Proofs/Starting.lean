import Mathlib.Order.Basic
import Mathlib.Data.Nat.Init
import Pinhole.Config.Init
import Pinhole.Proofs.JournalLines

/-!
# What starting a settings file leaves alone

A settings file is started at the end of a path, and directories are made on the way. Whether a file
is there already is asked before that, and a path may lead elsewhere when its directories are there:
two dots behind a name that was missing lead back to what was there all the time. A name is `Beyond`
if it stands in the path behind a place where nothing is.

`Config.init_changes_target_only` says for every tree and every path what else may change. Nothing
does but that directories are made on the way. They stay if the file cannot be written after all,
and that takes two dots, or a name that no file can have, beyond a place where nothing is.
-/

namespace Pinhole

/-- The beginning of a path that some of its names are. -/
def Path.front (p : Path) (n : Nat) : Path := { p with parts := p.parts.take n }

namespace Path

variable (p : Path)

theorem front_length : p.front p.parts.length = p := by simp [front]

theorem front_parent : p.front (p.parts.length - 1) = p.parent := by
  simp [front, parent, List.dropLast_eq_take]

/-- The beginnings of a path without its last name are beginnings of the path. -/
theorem parent_front (n : Nat) : p.parent.front n = p.front (min n (p.parts.length - 1)) := by
  simp [front, parent, List.dropLast_eq_take, List.take_take]

theorem hasNull_front {n : Nat} (h : p.hasNull = false) : (p.front n).hasNull = false :=
  hasNull_eq_false_of_subset h fun _ => List.mem_of_mem_take

/-- Some of the names between slashes are no longer than all of them. -/
theorem size_intercalate_take (names : List String) (n : Nat) :
    ("/".intercalate (names.take n)).utf8ByteSize ≤ ("/".intercalate names).utf8ByteSize := by
  induction names generalizing n with
  | nil => simp
  | cons a rest ih =>
    match n, rest with
    | 0, _ => simp
    | n + 1, [] => simp
    | 1, b :: rest =>
      simp only [List.take_succ_cons, List.take_zero, String.intercalate_singleton,
        String.intercalate_cons_cons, String.utf8ByteSize_append]
      omega
    | n + 2, b :: rest =>
      have := ih (n + 1)
      simp only [List.take_succ_cons, String.intercalate_cons_cons,
        String.utf8ByteSize_append] at this ⊢
      omega

/-- The beginnings of a path that is not too long are not too long. -/
theorem size_front_le {n : Nat} (h : p.text.utf8ByteSize ≤ Files.Tree.maxPathSize) :
    (p.front n).text.utf8ByteSize ≤ Files.Tree.maxPathSize := by
  have names := size_intercalate_take p.parts n
  unfold text at h ⊢
  split
  · decide
  · rename_i some
    have same : ¬ (p.slashes = 0 ∧ p.parts = []) := fun h => some ⟨h.1, by simp [front, h.2]⟩
    rw [if_neg same] at h
    simp only [front, String.utf8ByteSize_append] at h ⊢
    omega

end Path

namespace Files.Tree

variable {t u : Tree} {k l m : Location} {p : Path} {names : List String} {name : String}

/-! ## Walks -/

/-- A walk without double dots only goes down. -/
theorem walk_descends (down : ".." ∉ names) (arrives : t.walk l names = .ok m) :
    m = l ++ names := by
  induction names generalizing l with
  | nil =>
    cases arrives
    simp
  | cons name names ih =>
    rw [walk] at arrives
    split at arrives
    · cases arrives
    · cases arrives
    · split at arrives
      · cases arrives
      obtain ⟨ne, down⟩ := not_or.1 (mt List.mem_cons.2 down)
      rw [ih down arrives, stepTo_of_ne (Ne.symm ne), List.append_assoc, List.singleton_append]

/-- A walk that ends where nothing was leads over the places that it has come to. -/
theorem exists_lost {o : Obstacle} (grows : t.Grows u) (fails : t.walk l names = .error o)
    (arrives : u.walk l names = .ok m) :
    ∃ n k, t.walk l (names.take n) = .ok k ∧ t.lookup? k = none ∧
      u.walk k (names.drop n) = .ok m := by
  induction names generalizing l with
  | nil => cases fails
  | cons name names ih =>
    cases found : t.lookup? l with
    | none => exact ⟨0, l, rfl, found, arrives⟩
    | some e =>
      rw [walk] at fails arrives
      rw [grows.kept l e found] at arrives
      rw [found] at fails
      cases e with
      | file content => cases arrives
      | directory =>
        dsimp only at fails arrives
        split at arrives
        · cases arrives
        rename_i short
        rw [if_neg short] at fails
        obtain ⟨n, k, before, nothing, rest⟩ := ih fails arrives
        refine ⟨n + 1, k, ?_, nothing, rest⟩
        rw [List.take_succ_cons, walk, found]
        simpa [short] using before

/-- A walk comes by the places of its beginnings, and these are directories. -/
theorem walk_take (arrives : t.walk l names = .ok m) {n : Nat} (before : n < names.length) :
    ∃ k, t.walk l (names.take n) = .ok k ∧ t.lookup? k = some .directory := by
  rw [← List.take_append_drop n names, walk_append] at arrives
  cases first : t.walk l (names.take n) with
  | error o =>
    rw [first] at arrives
    cases arrives
  | ok k =>
    refine ⟨k, rfl, ?_⟩
    rw [first, List.drop_eq_getElem_cons before] at arrives
    simp only [Except.bind, walk] at arrives
    split at arrives
    · cases arrives
    · cases arrives
    · assumption

/-! ## Trees that stand on directories -/

/-- Every entry is in a directory. -/
def Rooted (t : Tree) : Prop := ∀ x ∈ t.entries, t.isDirectoryAt x.1.dropLast = true

instance (t : Tree) : Decidable t.Rooted := inferInstanceAs (Decidable (∀ x ∈ t.entries, _))

/-- What is found is in a directory. -/
theorem Rooted.directory (rooted : t.Rooted) (found : t.lookup? (k ++ [name]) ≠ none) :
    t.lookup? k = some .directory := by
  by_cases inside : (k ++ [name]).isPrefixOf t.here = true
  · have above : k.isPrefixOf t.here = true := List.isPrefixOf_iff_prefix.2
      ((List.prefix_append k [name]).trans (List.isPrefixOf_iff_prefix.1 inside))
    rw [lookup?, if_pos above]
  · rw [lookup?, if_neg inside] at found
    obtain ⟨x, hx, same⟩ := List.lookup_isSome_iff.1 (Option.isSome_iff_ne_none.2 found)
    have room := rooted x hx
    rw [← eq_of_beq same, List.dropLast_concat] at room
    simpa [isDirectoryAt] using room

/-- Nothing is found below a place where nothing is. -/
theorem Rooted.nothing_below (rooted : t.Rooted) (nothing : t.lookup? k = none) (l : Location) :
    t.lookup? (k ++ l) = none := by
  induction l using List.reverseRecOn with
  | nil => rw [List.append_nil, nothing]
  | append_singleton l name ih =>
    by_contra found
    rw [← List.append_assoc] at found
    rw [rooted.directory found] at ih
    cases ih

/-! ## Directories that are made -/

/-- A place on the way of a path: some beginning of the path leads there. -/
def OnWay (t : Tree) (p : Path) (l : Location) : Prop := ∃ n, t.locate (p.front n) = .ok l

/-- Nothing was at a place, and now a directory is there, on the way of a path. -/
def Made (t u : Tree) (p : Path) (k : Location) : Prop :=
  t.lookup? k = none ∧ u.lookup? k = some .directory ∧ u.OnWay p k

theorem isDirectory_iff :
    t.isDirectory p = true ↔ ∃ l, t.locate p = .ok l ∧ t.lookup? l = some .directory := by
  unfold isDirectory at?
  cases t.locate p <;> simp

/-- A directory that is put where nothing is is found there, and the path still leads there. -/
theorem isDirectory_of_makeDirectory (made : t.makeDirectory p = .ok u) :
    ∃ l, t.lookup? l = none ∧ u.locate p = .ok l ∧
      ∀ k, u.lookup? k = if k = l then some .directory else t.lookup? k := by
  have grows := grows_makeDirectory made
  obtain ⟨l, leads, free, rfl⟩ := makeDirectory_eq_ok made
  exact ⟨l, free, grows.keeps.locate leads, fun k =>
    t.lookup?_put .directory k (isPrefixOf_here_eq_false (by simp [free]))⟩

theorem isDirectory_of_settle (done : t.settle p (t.makeDirectory p) = (.ok (), u)) :
    u.isDirectory p = true := by
  cases made : t.makeDirectory p with
  | ok v =>
    rw [made] at done
    cases done
    obtain ⟨l, -, leads, found⟩ := isDirectory_of_makeDirectory made
    exact isDirectory_iff.2 ⟨l, leads, by rw [found, if_pos rfl]⟩
  | error o =>
    rw [made, settle, Prod.mk.injEq] at done
    obtain ⟨done, rfl⟩ := done
    split at done
    · rename_i there
      exact (Bool.and_eq_true_iff.1 there).2
    · cases done

/-- The beginnings of a path that have been made are directories. -/
theorem isDirectory_of_go {n : Nat} (done : makeDirectories.go p t n = (.ok (), u)) :
    u.isDirectory (p.front n) = true := by
  unfold makeDirectories.go at done
  dsimp only at done
  split at done
  · split at done
    · exact isDirectory_of_settle done
    · rename_i refused
      exact absurd done (refused u)
  · exact isDirectory_of_settle done

theorem isDirectory_of_makeDirectories (done : t.makeDirectories p = (.ok (), u)) :
    u.isDirectory p = true := by
  simpa only [p.front_length] using isDirectory_of_go done

/-- Making directories changes nothing but that directories are made on the way. -/
theorem lookup?_makeDirectories (t : Tree) (p : Path) (k : Location) :
    (t.makeDirectories p).2.lookup? k = t.lookup? k ∨ t.Made (t.makeDirectories p).2 p k := by
  refine (makeDirectories_induction (p := p)
    (R := fun t u => t.Grows u ∧ ∀ k, u.lookup? k = t.lookup? k ∨ t.Made u p k)
    (fun t => ⟨.refl t, fun k => Or.inl rfl⟩) ?_ ?_ t).2 k
  · rintro t u v ⟨grows, first⟩ ⟨grows', second⟩
    refine ⟨grows.trans grows', fun k => ?_⟩
    rcases second k with same | ⟨nothing, directory, way⟩
    · rw [same]
      refine (first k).imp_right fun ⟨nothing, directory, n, leads⟩ => ?_
      exact ⟨nothing, same.trans directory, n, grows'.keeps.locate leads⟩
    · rcases first k with same | ⟨-, found, -⟩
      · exact Or.inr ⟨same ▸ nothing, directory, way⟩
      · rw [nothing] at found
        cases found
  · intro t u n made
    obtain ⟨l, free, leads, found⟩ := isDirectory_of_makeDirectory made
    refine ⟨grows_makeDirectory made, fun k => ?_⟩
    by_cases hk : k = l
    · subst hk
      exact Or.inr ⟨free, by rw [found, if_pos rfl], n, leads⟩
    · exact Or.inl (by rw [found, if_neg hk])

/-- A path with nothing missing on its way needs no directories. -/
theorem makeDirectories_eq_self
    (there : ∀ n l, t.locate (p.front n) = .ok l → t.lookup? l ≠ none) :
    (t.makeDirectories p).2 = t := by
  refine makeDirectories_induction (p := p)
    (R := fun t u => (∀ n l, t.locate (p.front n) = .ok l → t.lookup? l ≠ none) → u = t)
    (fun t _ => rfl) ?_ ?_ t there
  · intro t u v first second there
    obtain rfl := first there
    exact second there
  · intro t u n made there
    obtain ⟨l, leads, free, -⟩ := makeDirectory_eq_ok made
    exact absurd free (there n l leads)

/-! ## Beyond what is missing -/

/-- A name that leads down and that a file can have. -/
structure Ordinary (name : String) : Prop where
  down : name ≠ ".."
  short : name.utf8ByteSize ≤ maxNameSize
  speakable : Char.ofNat 0 ∉ name.toList

/-- A beginning of a path leads to a place where nothing is. -/
structure Lost (t : Tree) (p : Path) (n : Nat) (k : Location) : Prop where
  leads : t.locate (p.front n) = .ok k
  nothing : t.lookup? k = none

/-- A name stands in a path behind a place where nothing is. -/
def Beyond (t : Tree) (p : Path) (name : String) : Prop :=
  ∃ n k, t.Lost p n k ∧ name ∈ p.parts.drop n

/-- A path whose names are ordinary beyond what is missing has no null characters. -/
theorem Lost.hasNull {n : Nat} (lost : t.Lost p n k) (ordinary : ∀ x ∈ p.parts.drop n, Ordinary x) :
    p.hasNull = false := by
  refine List.any_eq_false.2 fun x hx => ?_
  rw [← List.take_append_drop n p.parts] at hx
  rcases List.mem_append.1 hx with hx | hx
  · exact List.any_eq_false.1 (locate_eq_ok_iff.1 lost.leads).1 x hx
  · simpa using (ordinary x hx).speakable

/-- Where the beginning of a path leads, one more name leads one step further. -/
theorem locate_front_succ {n : Nat} (speakable : p.hasNull = false)
    (short : p.text.utf8ByteSize ≤ maxPathSize) (leads : t.locate (p.front n) = .ok l)
    (directory : t.lookup? l = some .directory) (before : n < p.parts.length)
    (ordinary : Ordinary p.parts[n]) :
    t.locate (p.front (n + 1)) = .ok (l ++ [p.parts[n]]) := by
  refine locate_eq_ok_iff.2 ⟨p.hasNull_front speakable, p.size_front_le short, ?_⟩
  obtain ⟨-, -, arrives⟩ := locate_eq_ok_iff.1 leads
  change t.walk (t.start p) (p.parts.take n) = _ at arrives
  change t.walk (t.start p) (p.parts.take (n + 1)) = _
  rw [← List.take_append_getElem before, walk_append, arrives]
  simp only [Except.bind, walk, directory]
  rw [if_neg (Nat.not_lt.2 ordinary.short), stepTo_of_ne ordinary.down]

/-- Beyond what is missing a path leads nowhere. -/
theorem Lost.locate {n : Nat} (lost : t.Lost p n k) (ordinary : ∀ x ∈ p.parts.drop n, Ordinary x)
    (short : p.text.utf8ByteSize ≤ maxPathSize) {i : Nat} (beyond : n < i)
    (within : n < p.parts.length) : t.locate (p.front i) = .error .missing := by
  obtain ⟨-, -, arrives⟩ := locate_eq_ok_iff.1 lost.leads
  change t.walk (t.start p) (p.parts.take n) = _ at arrives
  obtain ⟨j, rfl⟩ := Nat.exists_eq_add_of_lt beyond
  have rest : (p.front (n + j + 1)).parts =
      p.parts.take n ++ p.parts[n] :: (p.parts.drop (n + 1)).take j := by
    rw [Path.front, Nat.add_assoc, List.take_add, List.drop_eq_getElem_cons within,
      List.take_succ_cons]
  rw [Tree.locate, p.hasNull_front (lost.hasNull ordinary),
    if_neg (Nat.not_lt.2 (p.size_front_le short)), rest, walk_append]
  change (if false = true then _ else (t.walk (t.start p) (p.parts.take n)).bind _) = _
  rw [arrives]
  simp only [Except.bind, walk, lost.nothing]
  rfl

/-- Beyond what is missing a path without double dots only goes down. -/
theorem Lost.place {n i : Nat} (lost : t.Lost p n k) (keeps : t.Keeps u)
    (down : ".." ∉ p.parts.drop n) (le : n ≤ i) (leads : u.locate (p.front i) = .ok l) :
    l = k ++ (p.parts.drop n).take (i - n) := by
  obtain ⟨-, -, before⟩ := locate_eq_ok_iff.1 (keeps.locate lost.leads)
  obtain ⟨-, -, arrives⟩ := locate_eq_ok_iff.1 leads
  change u.walk (u.start p) (p.parts.take n) = _ at before
  change u.walk (u.start p) (p.parts.take i) = _ at arrives
  obtain ⟨j, rfl⟩ := Nat.exists_eq_add_of_le le
  rw [List.take_add, walk_append, before] at arrives
  rw [Nat.add_sub_cancel_left]
  exact walk_descends (fun h => down (List.mem_of_mem_take h)) arrives

/-- Where a path leads to and nothing is there is room. -/
theorem room_of_locate (leads : t.locate p = .ok l) (nothing : t.lookup? l = none) :
    t.isDirectoryAt l.dropLast = true := by
  by_cases top : l.dropLast = l
  · -- Only the root is not in another directory, and it is there.
    have root : l = [] := by
      by_contra ne
      have := congrArg List.length top
      rw [List.length_dropLast] at this
      have := List.length_pos_iff.2 ne
      omega
    subst root
    cases nothing
  · have above := above_of_locate leads _ (List.dropLast_prefix l) top
    rw [isDirectoryAt, above]
    rfl

/-- A directory can be made where a path leads to, unless a file is there. -/
theorem exists_settled (leads : t.locate p = .ok l)
    (free : ∀ e, t.lookup? l = some e → e = .directory) :
    ∃ u, t.settle p (t.makeDirectory p) = (.ok (), u) ∧ t.Grows u := by
  cases found : t.lookup? l with
  | none =>
    have made : t.makeDirectory p = .ok (t.put l .directory) := by
      simp only [makeDirectory, leads, found, room_of_locate leads found, if_true]
    exact ⟨_, by rw [made, settle], grows_makeDirectory made⟩
  | some e =>
    obtain rfl := free e found
    have made : t.makeDirectory p = .error .occupied := by
      simp only [makeDirectory, leads, found]
    have there : t.isDirectory p = true := isDirectory_iff.2 ⟨l, leads, found⟩
    exact ⟨t, by simp [made, settle, there], .refl t⟩

section Beyond

variable {n : Nat} (rooted : t.Rooted) (lost : t.Lost p n k)
  (ordinary : ∀ x ∈ p.parts.drop n, Ordinary x) (short : p.text.utf8ByteSize ≤ maxPathSize)

include rooted lost ordinary

/-- What is found beyond what was missing has been made. -/
theorem Lost.directory {i : Nat} {e : Entry} (grows : t.Grows u) (le : n ≤ i)
    (leads : u.locate (p.front i) = .ok l) (found : u.lookup? l = some e) : e = .directory := by
  have down : ".." ∉ p.parts.drop n := fun h => (ordinary _ h).down rfl
  refine (grows.made l e found).resolve_left fun found => ?_
  rw [lost.place grows.keeps down le leads, rooted.nothing_below lost.nothing] at found
  cases found

include short

/-- All directories beyond what is missing can be made. -/
theorem Lost.makeDirectories (within : n ≤ p.parts.length) :
    ∃ u, t.makeDirectories p = (.ok (), u) := by
  have steps {i : Nat} (le : n ≤ i) (within : i ≤ p.parts.length) :
      ∃ u, makeDirectories.go p t i = (.ok (), u) ∧ t.Grows u := by
    induction i, le using Nat.le_induction with
    | base =>
      obtain ⟨u, done, grows⟩ := exists_settled lost.leads (by simp [lost.nothing])
      refine ⟨u, ?_, grows⟩
      unfold makeDirectories.go
      dsimp only
      split
      · rename_i missing
        change t.makeDirectory (p.front _) = _ at missing
        rw [missing] at done
        cases done
      · exact done
    | succ i le ih =>
      obtain ⟨u, before, grows⟩ := ih (Nat.le_of_succ_le within)
      obtain ⟨l, leads, directory⟩ := isDirectory_iff.1 (isDirectory_of_go before)
      have next := locate_front_succ (lost.hasNull ordinary) short leads directory within
        (ordinary _ (List.mem_drop_iff_getElem.2 ⟨i - n, by omega, by simp [le]⟩))
      obtain ⟨v, done, grows'⟩ := exists_settled next fun e found =>
        lost.directory rooted ordinary grows (Nat.le_succ_of_le le) next found
      refine ⟨v, ?_, grows.trans grows'⟩
      have missing : t.makeDirectory (p.front (i + 1)) = .error .missing := by
        rw [makeDirectory, lost.locate ordinary short (by omega) (by omega)]
      unfold makeDirectories.go
      dsimp only
      split
      · rename_i same _
        obtain rfl := Nat.succ.inj same
        simp only [before]
        exact done
      · rename_i other
        exact absurd missing (other i rfl)
  obtain ⟨u, done, -⟩ := steps within le_rfl
  exact ⟨u, done⟩

/-- A file can be written beyond what is missing once its directory is there. -/
theorem Lost.write (within : n < p.parts.length)
    (done : t.makeDirectories p.parent = (.ok (), u)) (content : ByteArray) :
    ∃ v, u.write p content = .ok v := by
  have down : ".." ∉ p.parts.drop n := fun h => (ordinary _ h).down rfl
  have grows : t.Grows u := by simpa only [done] using grows_makeDirectories t p.parent
  obtain ⟨l, leads, directory⟩ := isDirectory_iff.1 (isDirectory_of_makeDirectories done)
  have last : p.parts.length - 1 + 1 = p.parts.length := by omega
  have next := locate_front_succ (n := p.parts.length - 1) (lost.hasNull ordinary) short
    (by rw [p.front_parent, leads]) directory (by omega)
    (ordinary _ (List.mem_drop_iff_getElem.2 ⟨p.parts.length - 1 - n, by omega, by
      simp only [Nat.add_sub_of_le (Nat.le_sub_one_of_lt within)]⟩))
  rw [last] at next
  generalize l ++ [p.parts[p.parts.length - 1]] = m at next
  have below := lost.place grows.keeps down within.le next
  have nothing : t.lookup? m = none := by rw [below, rooted.nothing_below lost.nothing]
  rw [p.front_length] at next
  have free : u.lookup? m ≠ some .directory := by
    intro found
    have made := lookup?_makeDirectories t p.parent m
    rw [done, found, nothing] at made
    obtain ⟨-, -, i, way⟩ := made.resolve_left nofun
    -- The directories that were made are nearer to what was missing than the file.
    rw [p.parent_front] at way
    rcases Nat.lt_or_ge (min i (p.parts.length - 1)) n with near | beyond
    · obtain ⟨speakable, -, arrives⟩ := locate_eq_ok_iff.1 lost.leads
      change t.walk (t.start p) (p.parts.take n) = _ at arrives
      obtain ⟨k', before, there⟩ := walk_take (n := min i (p.parts.length - 1)) arrives (by
        rw [List.length_take]; omega)
      rw [List.take_take, Nat.min_eq_left near.le] at before
      have same : t.locate (p.front (min i (p.parts.length - 1))) = .ok k' :=
        locate_eq_ok_iff.2 ⟨p.hasNull_front (lost.hasNull ordinary), p.size_front_le short, before⟩
      rw [grows.keeps.locate same] at way
      cases way
      rw [nothing] at there
      cases there
    · have lengths := congrArg List.length (below.symm.trans
        (lost.place grows.keeps down beyond way))
      simp only [List.length_append, List.length_take, List.length_drop] at lengths
      omega
  cases found : u.lookup? m with
  | none =>
    simp [Tree.write, openFile, next, found, room_of_locate next found]
  | some e =>
    cases e with
    | directory => exact absurd found free
    | file old => simp [Tree.write, openFile, next, found]

end Beyond

/-- What is written is found where the path leads to, and nothing else has changed. -/
theorem write_eq_ok {content : ByteArray} (done : t.write p content = .ok u) :
    ∃ l, t.locate p = .ok l ∧ t.Keeps u ∧
      ∀ k, u.lookup? k = if k = l then some (.file content) else t.lookup? k := by
  unfold Tree.write at done
  cases opened : t.openFile p with
  | error f =>
    rw [opened] at done
    cases done
  | ok place =>
    rw [opened] at done
    cases done
    obtain ⟨leads, noDirectory⟩ := locate_of_openFile opened
    exact ⟨_, leads, keeps_put noDirectory content, fun k =>
      lookup?_put t _ k (isPrefixOf_here_eq_false noDirectory)⟩

end Files.Tree

/-! ## Starting a settings file -/

namespace Config

open Files

variable {t u : Tree} {p : Path} {force : Bool}

theorem init_eq_ok (done : init t p force = (.ok (), u)) :
    (force = false → t.contains p = .ok false) ∧
      ∃ v, t.makeDirectories p.parent = (.ok (), v) ∧ v.write p (encode exampleText) = .ok u := by
  unfold init at done
  split at done
  · cases done
  rename_i found contains
  split at done
  · cases done
  rename_i allowed
  split at done
  · cases done
  rename_i v made
  split at done
  · cases done
  rename_i w written
  cases done
  refine ⟨fun free => ?_, v, made, written⟩
  subst free
  rw [contains]
  simpa using allowed

theorem init_eq_error {e : Problem} (failed : init t p force = (.error e, u)) :
    u = t ∨ (∃ found, t.contains p = .ok found) ∧ u = (t.makeDirectories p.parent).2 := by
  unfold init at failed
  split at failed
  · cases failed
    exact Or.inl rfl
  rename_i found contains
  split at failed
  · cases failed
    exact Or.inl rfl
  split at failed
  · rename_i made
    cases failed
    exact Or.inr ⟨⟨found, contains⟩, by rw [made]⟩
  rename_i made
  split at failed
  · cases failed
    exact Or.inr ⟨⟨found, contains⟩, by rw [made]⟩
  · cases failed

/-- If something is missing and all names beyond it are ordinary, the file is written. -/
theorem init_of_lost (rooted : t.Rooted) {n : Nat} {k : Location} (lost : t.Lost p n k)
    (within : n < p.parts.length) (ordinary : ∀ x ∈ p.parts.drop n, Tree.Ordinary x)
    (short : p.text.utf8ByteSize ≤ Tree.maxPathSize) : ∃ u, init t p force = (.ok (), u) := by
  have contains : t.contains p = .ok false := by
    have missing := lost.locate ordinary short within within
    rw [p.front_length] at missing
    rw [Tree.contains, missing]
  have parent : t.Lost p.parent n k :=
    ⟨by rw [p.parent_front, Nat.min_eq_left (by omega), lost.leads], lost.nothing⟩
  have parts : p.parent.parts = p.parts.take (p.parts.length - 1) := List.dropLast_eq_take
  have size : p.parent.parts.length = p.parts.length - 1 := List.length_dropLast
  obtain ⟨v, made⟩ := parent.makeDirectories rooted
    (fun x hx => ordinary x (by
      rw [parts, List.drop_take] at hx
      exact List.mem_of_mem_take hx))
    (p.front_parent ▸ p.size_front_le short) (by omega)
  obtain ⟨u, written⟩ := lost.write rooted ordinary short within made (encode exampleText)
  exact ⟨u, by simp [init, contains, made, written]⟩

/-- If starting a file fails though directories have been made for it, something beyond what was
missing is no name for a file. -/
theorem exists_beyond_of_init (rooted : t.Rooted) {e : Problem}
    (failed : init t p force = (.error e, u)) (changed : u ≠ t) :
    ∃ x, t.Beyond p x ∧ ¬ Tree.Ordinary x := by
  obtain ⟨⟨found, contains⟩, rfl⟩ := (init_eq_error failed).resolve_left changed
  have missing : ∃ n k, t.locate (p.parent.front n) = .ok k ∧ t.lookup? k = none := by
    by_contra there
    push Not at there
    exact changed (Tree.makeDirectories_eq_self there)
  obtain ⟨n, k, leads, nothing⟩ := missing
  rw [p.parent_front] at leads
  have lost : t.Lost p (min n (p.parts.length - 1)) k := ⟨leads, nothing⟩
  have within : min n (p.parts.length - 1) < p.parts.length := by
    by_contra none
    -- A path of no names leads to where it starts, and a directory is there.
    have empty : p.parts = [] := List.eq_nil_of_length_eq_zero (by omega)
    obtain ⟨-, -, arrives⟩ := Tree.locate_eq_ok_iff.1 leads
    have start : (p.front (min n (p.parts.length - 1))).parts = [] := by simp [Path.front, empty]
    rw [start, Tree.walk] at arrives
    cases arrives
    unfold Tree.start at nothing
    split at nothing <;> simp [Tree.lookup?] at nothing
  by_contra ordinary
  push Not at ordinary
  have ordinary : ∀ x ∈ p.parts.drop (min n (p.parts.length - 1)), Tree.Ordinary x :=
    fun x hx => ordinary x ⟨_, k, lost, hx⟩
  have short : p.text.utf8ByteSize ≤ Tree.maxPathSize := by
    by_contra long
    rw [Tree.contains, Tree.locate, lost.hasNull ordinary, if_neg Bool.false_ne_true,
      if_pos (Nat.lt_of_not_le long)] at contains
    cases contains
  obtain ⟨v, done⟩ : ∃ v, init t p force = (.ok (), v) :=
    init_of_lost rooted lost within ordinary short
  rw [done] at failed
  cases failed

/-- If a path led nowhere before its directories were made, the place that it leads to is new,
unless two dots lead back from beyond what was missing. -/
theorem lookup?_of_contains (rooted : t.Rooted) (grows : t.Grows u)
    (contains : t.contains p = .ok false) (back : ¬ t.Beyond p "..") {l : Location}
    (leads : u.locate p = .ok l) : t.lookup? l = none := by
  cases before : t.locate p with
  | ok k =>
    rw [grows.keeps.locate before] at leads
    cases leads
    simpa [Tree.contains, before] using contains
  | error o =>
    obtain ⟨speakable, short, arrives⟩ := Tree.locate_eq_ok_iff.1 leads
    have start : u.start p = t.start p := by rw [Tree.start, Tree.start, grows.here]
    have fails : t.walk (t.start p) p.parts = .error o := by
      rw [Tree.locate, speakable, if_neg Bool.false_ne_true, if_neg (Nat.not_lt.2 short)] at before
      exact before
    obtain ⟨n, k, first, nothing, rest⟩ := Tree.exists_lost grows fails (start ▸ arrives)
    have lost : t.Lost p n k := ⟨Tree.locate_eq_ok_iff.2
      ⟨p.hasNull_front speakable, p.size_front_le short, first⟩, nothing⟩
    rw [Tree.walk_descends (fun h => back ⟨n, k, lost, h⟩) rest, rooted.nothing_below nothing]

/-- For every file tree and every path, forced or not:

* unless it is forced, no file that was there has another content now, as long as no two dots of the
  path stand beyond a place where nothing is;
* if starting the file fails, nothing has changed but that missing directories on the way may have
  been made, and they have not unless a name beyond a place where nothing is leads back or cannot be
  the name of a file;
* otherwise the file holds the example, and nothing else has changed but that missing directories on
  the way have been made. -/
theorem init_changes_target_only (t : Tree) (rooted : t.Rooted) (p : Path) (force : Bool) :
    (force = false → ¬ t.Beyond p ".." → ∀ k content, t.lookup? k = some (.file content) →
      (init t p force).2.lookup? k = some (.file content)) ∧
    (∀ e u, init t p force = (.error e, u) →
      (∀ k, u.lookup? k = t.lookup? k ∨ t.Made u p.parent k) ∧
        (u ≠ t → ∃ x, t.Beyond p x ∧ ¬ Tree.Ordinary x)) ∧
    (∀ u, init t p force = (.ok (), u) →
      ∃ l, u.locate p = .ok l ∧ u.lookup? l = some (.file (encode exampleText)) ∧
        ∀ k, k ≠ l → u.lookup? k = t.lookup? k ∨ t.Made u p.parent k) := by
  have failing {e : Problem} {u : Tree} (failed : init t p force = (.error e, u)) (k : Location) :
      u.lookup? k = t.lookup? k ∨ t.Made u p.parent k := by
    rcases init_eq_error failed with rfl | ⟨-, rfl⟩
    · exact Or.inl rfl
    · exact Tree.lookup?_makeDirectories t p.parent k
  have working {u : Tree} (done : init t p force = (.ok (), u)) :
      ∃ l, u.locate p = .ok l ∧ u.lookup? l = some (.file (encode exampleText)) ∧
        (∀ k, k ≠ l → u.lookup? k = t.lookup? k ∨ t.Made u p.parent k) ∧
        (force = false → ¬ t.Beyond p ".." → t.lookup? l = none) := by
    obtain ⟨asked, v, made, written⟩ := init_eq_ok done
    obtain ⟨l, leads, keeps, found⟩ := Tree.write_eq_ok written
    refine ⟨l, keeps.locate leads, by rw [found, if_pos rfl], fun k ne => ?_, fun free back => ?_⟩
    · have before := Tree.lookup?_makeDirectories t p.parent k
      rw [made] at before
      rw [found, if_neg ne]
      refine before.imp_right fun ⟨nothing, directory, n, way⟩ => ?_
      exact ⟨nothing, by rw [found, if_neg ne, directory], n, keeps.locate way⟩
    · have grows : t.Grows v := by simpa only [made] using Tree.grows_makeDirectories t p.parent
      exact lookup?_of_contains rooted grows (asked free) back leads
  refine ⟨fun free back k content there => ?_,
    fun e u failed => ⟨failing failed, exists_beyond_of_init rooted failed⟩, fun u done => ?_⟩
  · have kept {u : Tree} (h : u.lookup? k = t.lookup? k ∨ t.Made u p.parent k) :
        u.lookup? k = some (.file content) := by
      rcases h with same | ⟨nothing, -⟩
      · rw [same, there]
      · rw [there] at nothing
        cases nothing
    rcases h : init t p force with ⟨r, u⟩
    cases r with
    | error e => exact kept (failing h k)
    | ok a =>
      obtain ⟨l, -, -, others, new⟩ := working h
      refine kept (others k ?_)
      rintro rfl
      rw [new free back] at there
      cases there
  · obtain ⟨l, leads, found, others, -⟩ := working done
    exact ⟨l, leads, found, others⟩

/-- A file is started two directories further down than there are directories, beside a file that
stays what it is. -/
theorem nested_init_changes_target_only :
    let t : Tree := { entries := [(["config.yaml"], .file (encode "old: 1\n"))] }
    let p := Path.ofText "etc/./fwd//config.yaml"
    t.Rooted ∧ ¬ t.Beyond p ".." ∧ ∃ u, init t p false = (.ok (), u) ∧
      u.lookup? ["config.yaml"] = t.lookup? ["config.yaml"] ∧
      u.lookup? ["etc", "fwd", "config.yaml"] = some (.file (encode exampleText)) ∧
      ∀ k, k ≠ ["etc", "fwd", "config.yaml"] → u.lookup? k = t.lookup? k ∨ t.Made u p.parent k := by
  intro t p
  have rooted : t.Rooted := by decide
  have names : p.parts = ["etc", "fwd", "config.yaml"] := by decide +kernel
  have back : ¬ t.Beyond p ".." := by
    rintro ⟨n, k, -, dots⟩
    have dots := List.mem_of_mem_drop dots
    rw [names] at dots
    revert dots
    decide
  have works : (init t p false).1 = .ok () := by decide +kernel
  have leads : (init t p false).2.locate p = .ok ["etc", "fwd", "config.yaml"] := by decide +kernel
  rcases h : init t p false with ⟨r, u⟩
  rw [h] at works leads
  cases works
  obtain ⟨kept, -, written⟩ := init_changes_target_only t rooted p false
  have old := kept rfl back ["config.yaml"] _ rfl
  rw [h] at old
  obtain ⟨l, leads', found, others⟩ := written u h
  cases leads.symm.trans leads'
  exact ⟨rooted, back, u, rfl, old, found, others⟩

/-- Two dots behind a missing directory lead back to a file that is there, and it is overwritten
though nobody has asked for that. Where they lead back to a directory nothing can be written, and
the directory that was made on the way stays. -/
theorem init_may_overwrite_and_leave :
    let t : Tree := { entries := [(["config.yaml"], .file (encode "old: 1\n"))] }
    let p := Path.ofText "new/../config.yaml"
    (init t p false).1 = .ok () ∧
      t.lookup? ["config.yaml"] = some (.file (encode "old: 1\n")) ∧
      (init t p false).2.lookup? ["config.yaml"] = some (.file (encode exampleText)) ∧
      encode exampleText ≠ encode "old: 1\n" ∧
    (init {} (.ofText "new/..") false).1 =
        .error (.unforeseen (.file ⟨.isDirectory, "new/..", none⟩)) ∧
      ({} : Tree).lookup? ["new"] = none ∧
      (init {} (.ofText "new/..") false).2.lookup? ["new"] = some .directory := by
  intro t p
  have works : (init t p false).1 = .ok () := by decide +kernel
  have leads : (init t p false).2.locate p = .ok ["config.yaml"] := by decide +kernel
  have overwritten :
      (init t p false).2.lookup? ["config.yaml"] = some (.file (encode exampleText)) := by
    rcases h : init t p false with ⟨r, u⟩
    rw [h] at works leads
    cases works
    obtain ⟨-, v, -, written⟩ := init_eq_ok h
    obtain ⟨l, leads', keeps, found⟩ := Tree.write_eq_ok written
    cases leads.symm.trans (keeps.locate leads')
    rw [found, if_pos rfl]
  have other : encode exampleText ≠ encode "old: 1\n" := by
    intro same
    have same := congrArg decode? same
    rw [decode?_encode, decode?_encode] at same
    exact absurd (Option.some.inj same) (by decide +kernel)
  exact ⟨works, rfl, overwritten, other, by decide +kernel, rfl, by decide +kernel⟩

end Config

end Pinhole
