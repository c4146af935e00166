import Mathlib.Data.List.Basic
import Pinhole.Audit.Journal

/-!
# Records that are stored

`Journal.Stores` says what some events, stored one after the other, make of the files. A journal is
`Writable` if this works for all of them, however many they are and however often the file has
outgrown its limit meanwhile.

A journal whose directory is there is writable if no directory stands where its file or one of its
backups belongs (`Housed.writable`). Storing an event moves files between these places and keeps all
other places what they are.
-/

namespace Pinhole

namespace Files.Tree

variable {t u : Tree} {k l m : Location}

/-! ## Places for files -/

/-- Directories stay directories, and the working directory stays where it is. -/
structure Keeps (t u : Tree) : Prop where
  here : u.here = t.here
  directory : ∀ k, t.lookup? k = some .directory → u.lookup? k = some .directory

/-- A place for a file: no directory is there, and nothing is below it. -/
structure Vacant (t : Tree) (m : Location) : Prop where
  lookup : t.lookup? m ≠ some .directory
  below : ∀ x ∈ t.entries, m.isPrefixOf x.1 = true → x.1 = m

/-- A walk that arrives still arrives there. -/
theorem Keeps.walk (h : t.Keeps u) {names : List String} (arrives : t.walk l names = .ok m) :
    u.walk l names = .ok m := by
  induction names generalizing l with
  | nil => exact arrives
  | cons name names ih =>
    unfold Tree.walk at arrives ⊢
    cases hl : t.lookup? l with
    | none =>
      rw [hl] at arrives
      cases arrives
    | some e =>
      rw [hl] at arrives
      cases e with
      | file content => cases arrives
      | directory =>
        simp only [h.directory l hl] at arrives ⊢
        split at arrives
        · cases arrives
        · rename_i short
          rw [if_neg short]
          exact ih arrives

/-- A path that leads somewhere still leads there. -/
theorem Keeps.locate (h : t.Keeps u) {p : Path} (leads : t.locate p = .ok m) :
    u.locate p = .ok m := by
  unfold Tree.locate at leads ⊢
  rw [h.here]
  split at leads
  · cases leads
  · split at leads
    · cases leads
    · rename_i speakable short
      rw [if_neg speakable, if_neg short]
      exact h.walk leads

/-- A place without a directory is not on the way to the working directory. -/
theorem isPrefixOf_here_eq_false (h : t.lookup? m ≠ some .directory) :
    m.isPrefixOf t.here = false := by
  refine Bool.eq_false_iff.2 fun hm => h ?_
  rw [lookup?, if_pos hm]

theorem Vacant.apart (h : t.Vacant m) : m.isPrefixOf t.here = false :=
  isPrefixOf_here_eq_false h.lookup

theorem Vacant.below_eq_nil (h : t.Vacant m) : t.below m = [] := by
  refine List.filter_eq_nil_iff.2 fun x hx => ?_
  by_cases hm : m.isPrefixOf x.1 = true
  · simp [h.below x hx hm]
  · simp [hm]

theorem mem_replaced {entries : List (Location × Entry)} {e : Entry} {x : Location × Entry}
    (h : x ∈ replaced entries l e) : x = (l, e) ∨ x ∈ entries := by
  induction entries with
  | nil => exact Or.inl (List.mem_singleton.1 h)
  | cons y rest ih =>
    obtain ⟨a, d⟩ := y
    unfold replaced at h
    split at h
    · rename_i hal
      subst hal
      rcases List.mem_cons.1 h with rfl | h
      · exact Or.inl rfl
      · exact Or.inr (List.mem_cons_of_mem _ h)
    · rcases List.mem_cons.1 h with rfl | h
      · exact Or.inr List.mem_cons_self
      · exact (ih h).imp_right (List.mem_cons_of_mem _)

/-- A file that is put where no directory is takes no directory away. -/
theorem keeps_put (h : t.lookup? m ≠ some .directory) (content : ByteArray) :
    t.Keeps (t.put m (.file content)) := by
  refine ⟨rfl, fun k hk => ?_⟩
  rw [lookup?_put t _ _ (isPrefixOf_here_eq_false h), if_neg, hk]
  rintro rfl
  exact h hk

/-- A file that is put somewhere leaves the places beside it for files. -/
theorem Vacant.put (hk : t.Vacant k) (hm : t.Vacant m) (beside : k.length = m.length)
    (content : ByteArray) : (t.put m (.file content)).Vacant k := by
  constructor
  · rw [lookup?_put t _ _ hm.apart]
    split
    · exact nofun
    · exact hk.lookup
  · intro x hx inside
    rcases mem_replaced hx with rfl | hx
    · exact ((List.isPrefixOf_iff_prefix.1 inside).eq_of_length beside).symm
    · exact hk.below x hx inside

/-! ## Moving a file -/

/-- Of the entries that are kept, those at other places are found as before. -/
theorem lookup_filter (entries : List (Location × Entry)) (p : Location → Bool) (k : Location) :
    (entries.filter fun x => p x.1).lookup k = if p k then entries.lookup k else none := by
  induction entries with
  | nil => simp
  | cons x rest ih =>
    obtain ⟨a, d⟩ := x
    by_cases hk : k = a
    · subst hk
      by_cases hp : p k = true
      · simp [hp]
      · simpa [hp] using ih
    · by_cases hp : p a = true
      · simpa [hp, List.lookup_cons, beq_eq_false_iff_ne.2 hk] using ih
      · simpa [hp, List.lookup_cons, beq_eq_false_iff_ne.2 hk] using ih

/-- The tree in which a file has moved from one place to another. -/
def moved (t : Tree) (m k : Location) (content : ByteArray) : Tree :=
  { t with entries := t.entries.filter fun x => !m.isPrefixOf x.1 }.put k (.file content)

/-- Renaming a file moves it, if there is a place for it. -/
theorem rename_eq_moved {p q : Path} {content : ByteArray} (hp : t.locate p = .ok m)
    (hq : t.locate q = .ok k) (vacant_m : t.Vacant m) (vacant_k : t.Vacant k)
    (found : t.lookup? m = some (.file content)) (room : t.isDirectoryAt k.dropLast = true)
    (ne : m ≠ k) : t.rename p q = .ok (t.moved m k content) := by
  have hbelow : ∀ {n}, t.Vacant n → t.below n = [] := Vacant.below_eq_nil
  unfold rename
  simp only [hp, hq, found, ne, if_false, hbelow vacant_m, hbelow vacant_k, room, List.isEmpty_nil,
    Bool.not_true, Bool.and_false, Bool.false_eq_true, List.map_nil, List.append_nil]
  cases hk : t.lookup? k with
  | none => rfl
  | some e =>
    cases e with
    | file old => rfl
    | directory => exact absurd hk vacant_k.lookup

/-- Where a file has moved to it is found, where it was nothing is, and all else is as before. -/
theorem lookup?_moved {content : ByteArray} (vacant_m : t.Vacant m) (vacant_k : t.Vacant k)
    (n : Location) :
    (t.moved m k content).lookup? n =
      if n = k then some (.file content) else if n = m then none else t.lookup? n := by
  have hput := lookup?_put { t with entries := t.entries.filter fun x => !m.isPrefixOf x.1 }
    (.file content) n vacant_k.apart
  rw [moved, hput]
  by_cases hnk : n = k
  · rw [if_pos hnk, if_pos hnk]
  rw [if_neg hnk, if_neg hnk, lookup?, lookup?]
  by_cases hhere : n.isPrefixOf t.here = true
  · have hnm : n ≠ m := by
      rintro rfl
      rw [vacant_m.apart] at hhere
      cases hhere
    rw [if_neg hnm, if_pos hhere, if_pos hhere]
  rw [if_neg hhere, if_neg hhere, lookup_filter _ (fun x => !m.isPrefixOf x)]
  by_cases hnm : n = m
  · subst hnm
    have hself : n.isPrefixOf n = true := List.isPrefixOf_iff_prefix.2 List.prefix_rfl
    simp only [hself, Bool.not_true, Bool.false_eq_true, if_false, if_true]
  rw [if_neg hnm]
  by_cases inside : m.isPrefixOf n = true
  · -- Nothing is below the place that the file was at.
    have hnone : t.entries.lookup n = none := by
      refine List.lookup_eq_none_iff.2 fun x hx => ?_
      refine bne_iff_ne.2 fun hxn => hnm ?_
      rw [hxn]
      exact vacant_m.below x hx (hxn ▸ inside)
    simp [inside, hnone]
  · simp [inside]

theorem keeps_moved (vacant_m : t.Vacant m) (vacant_k : t.Vacant k) (content : ByteArray) :
    t.Keeps (t.moved m k content) := by
  refine ⟨rfl, fun n hn => ?_⟩
  rw [lookup?_moved vacant_m vacant_k, if_neg, if_neg, hn]
  · rintro rfl
    exact vacant_m.lookup hn
  · rintro rfl
    exact vacant_k.lookup hn

theorem Vacant.moved {n : Location} (hn : t.Vacant n) (vacant_m : t.Vacant m)
    (vacant_k : t.Vacant k) (beside : n.length = k.length) (content : ByteArray) :
    (t.moved m k content).Vacant n := by
  constructor
  · rw [lookup?_moved vacant_m vacant_k]
    split
    · exact nofun
    · split
      · exact nofun
      · exact hn.lookup
  · intro x hx inside
    rcases mem_replaced hx with rfl | hx
    · exact ((List.isPrefixOf_iff_prefix.1 inside).eq_of_length beside).symm
    · exact hn.below x (List.mem_filter.1 hx).1 inside

/-- A file is opened where the path leads to, unless a directory is there. -/
theorem locate_of_openFile {p : Path} {bytes : ByteArray} (opened : t.openFile p = .ok (l, bytes)) :
    t.locate p = .ok l ∧ t.lookup? l ≠ some .directory := by
  rw [openFile] at opened
  split at opened
  · cases opened
  · rename_i k leads
    split at opened
    · cases opened
    · rename_i found
      cases opened
      exact ⟨leads, by simp [found]⟩
    · rename_i found
      split_ifs at opened
      cases opened
      exact ⟨leads, by simp [found]⟩

/-- A directory that is there is not made again. -/
theorem makeDirectories_of_directory {p : Path} (leads : t.locate p = .ok l)
    (directory : t.lookup? l = some .directory) : t.makeDirectories p = (.ok (), t) := by
  have hmake : t.makeDirectory p = .error .occupied := by
    simp only [makeDirectory, leads, directory]
  have hdirectory : t.isDirectory p = true := by
    simp only [isDirectory, at?, leads, directory]
    rfl
  have hsettle : t.settle p (.error .occupied) = (.ok (), t) := by
    simp [settle, hdirectory]
  unfold makeDirectories makeDirectories.go
  simp only [List.take_length, hmake]
  cases p.parts.length with
  | zero => exact hsettle
  | succ n => exact hsettle

end Files.Tree

namespace Audit.Journal

open Pinhole.Files

variable {j : Journal} {t u v : Tree} {es fs : List Event} {e : Event} {l : Location}

/-! ## Storing events -/

/-- Stores some events, one after the other. -/
def storeAll (j : Journal) : List Event → Filing Unit
  | [] => pure ()
  | e :: es => do
    j.store e
    j.storeAll es

/-- Storing some events works, and leads from one tree to another. -/
def Stores (j : Journal) (t : Tree) (es : List Event) (u : Tree) : Prop :=
  (j.storeAll es).on t = (.ok (), u)

/-- Whatever is to be stored can be stored. -/
def Writable (j : Journal) (t : Tree) : Prop := ∀ es, ∃ u, j.Stores t es u

theorem stores_nil (j : Journal) (t : Tree) : j.Stores t [] t := rfl

theorem stores_cons :
    j.Stores t (e :: es) v ↔ ∃ u, (j.store e).on t = (.ok (), u) ∧ j.Stores u es v := by
  unfold Stores
  rw [storeAll, Filing.on_bind]
  rcases (j.store e).on t with ⟨r, u⟩
  cases r with
  | ok a => simp
  | error f => simp

theorem stores_append : j.Stores t (es ++ fs) v ↔ ∃ u, j.Stores t es u ∧ j.Stores u fs v := by
  induction es generalizing t with
  | nil =>
    constructor
    · exact fun h => ⟨t, stores_nil j t, h⟩
    · rintro ⟨u, hu, h⟩
      cases hu
      exact h
  | cons e es ih =>
    rw [List.cons_append, stores_cons]
    constructor
    · rintro ⟨u, hu, h⟩
      obtain ⟨w, hw, h⟩ := ih.1 h
      exact ⟨w, stores_cons.2 ⟨u, hu, hw⟩, h⟩
    · rintro ⟨w, hw, h⟩
      obtain ⟨u, hu, hw⟩ := stores_cons.1 hw
      exact ⟨u, hu, ih.2 ⟨w, hw, h⟩⟩

/-- A journal that is writable takes the next event and is writable after it. -/
theorem Writable.store (h : j.Writable t) (e : Event) :
    ∃ u, (j.store e).on t = (.ok (), u) ∧ j.Writable u := by
  obtain ⟨u, hu⟩ := h [e]
  obtain ⟨w, hw, -⟩ := stores_cons.1 hu
  refine ⟨w, hw, fun es => ?_⟩
  obtain ⟨v, hv⟩ := h (e :: es)
  obtain ⟨w', hw', hv⟩ := stores_cons.1 hv
  rw [hw] at hw'
  cases hw'
  exact ⟨v, hv⟩

/-- If every tree of a kind takes an event and is of that kind after it, the journal is writable. -/
theorem writable_of_kind {P : Tree → Prop}
    (h : ∀ t, P t → ∀ e, ∃ u, (j.store e).on t = (.ok (), u) ∧ P u) (start : P t) :
    j.Writable t := by
  intro es
  induction es generalizing t with
  | nil => exact ⟨t, stores_nil j t⟩
  | cons e es ih =>
    obtain ⟨u, hu, next⟩ := h t start e
    obtain ⟨v, hv⟩ := ih next
    exact ⟨v, stores_cons.2 ⟨u, hu, hv⟩⟩

/-- A journal that is kept has stored some events, which led from one tree to another, and can store
more. -/
structure Recorded (j : Journal) (t : Tree) (es : List Event) (u : Tree) : Prop where
  enabled : j.enabled = true
  stores : j.Stores t es u
  writable : j.Writable u

/-- One more event is stored without a warning. -/
theorem Recorded.log (h : j.Recorded t es u) (e : Event) :
    ∃ v, j.log e u = (.ok none, v) ∧ j.Recorded t (es ++ [e]) v := by
  obtain ⟨v, hv, writable⟩ := h.writable.store e
  refine ⟨v, ?_, h.enabled, ?_, writable⟩
  · rw [Journal.log, if_pos h.enabled, hv]
  · exact stores_append.2 ⟨u, h.stores, stores_cons.2 ⟨v, hv, stores_nil j v⟩⟩

/-! ## The place of a journal -/

/-- The file of a journal, and its backups behind it. -/
def slot (j : Journal) : Nat → Path
  | 0 => j.path
  | n + 1 => j.backup (n + 1)

/-- The place of a slot in a directory. -/
def slotAt (j : Journal) (l : Location) (n : Nat) : Location := l ++ [(j.slot n).name]

/-- The directory of a journal is there, and its file and its backups have their places in it. -/
structure Housed (j : Journal) (l : Location) (t : Tree) : Prop where
  parent : t.locate j.path.parent = .ok l
  directory : t.lookup? l = some .directory
  slots : ∀ n ≤ j.backups, t.locate (j.slot n) = .ok (j.slotAt l n)
  vacant : ∀ n ≤ j.backups, t.Vacant (j.slotAt l n)

/-- A backup has another place than the file. -/
theorem slotAt_succ_ne_zero (j : Journal) (l : Location) (n : Nat) :
    j.slotAt l (n + 1) ≠ j.slotAt l 0 := by
  intro h
  have hname : (j.slot (n + 1)).name = (j.slot 0).name := by simpa [slotAt] using h
  simp only [slot, backup, Path.name_withName] at hname
  have hlength := congrArg String.length hname
  simp only [String.length_append] at hlength
  have hdot : ".".length = 1 := rfl
  omega

theorem length_slotAt (j : Journal) (l : Location) (n : Nat) :
    (j.slotAt l n).length = l.length + 1 := by
  simp [slotAt]

namespace Housed

variable (h : j.Housed l t)

include h

theorem keeps (keeps : t.Keeps u) (vacant : ∀ n ≤ j.backups, u.Vacant (j.slotAt l n)) :
    j.Housed l u where
  parent := keeps.locate h.parent
  directory := keeps.directory l h.directory
  slots n hn := keeps.locate (h.slots n hn)
  vacant := vacant

/-- There is room for files in the directory of a journal. -/
theorem room (n : Nat) : t.isDirectoryAt (j.slotAt l n).dropLast = true := by
  rw [slotAt, List.dropLast_concat, Tree.isDirectoryAt, h.directory]
  rfl

/-- The directory of a journal is there and is not made again. -/
theorem makeDirectories : t.makeDirectories j.path.parent = (.ok (), t) :=
  Tree.makeDirectories_of_directory h.parent h.directory

/-- A line can be added to the file. -/
theorem append (more : ByteArray) :
    ∃ content, t.append j.path more = .ok (t.put (j.slotAt l 0) (.file content)) := by
  have hlocate : t.locate j.path = .ok (j.slotAt l 0) := h.slots 0 (Nat.zero_le _)
  have hroom := h.room 0
  have hvacant := (h.vacant 0 (Nat.zero_le _)).lookup
  unfold Tree.append Tree.openFile
  simp only [hlocate]
  cases hfound : t.lookup? (j.slotAt l 0) with
  | none =>
    simp only [hroom, if_true]
    exact ⟨_, rfl⟩
  | some x =>
    cases x with
    | file content => exact ⟨_, rfl⟩
    | directory => exact absurd hfound hvacant

/-- A file that is put at the place of the journal leaves everything where it was. -/
theorem put (content : ByteArray) : j.Housed l (t.put (j.slotAt l 0) (.file content)) := by
  have hvacant := h.vacant 0 (Nat.zero_le _)
  refine h.keeps (Tree.keeps_put hvacant.lookup content) fun n hn => ?_
  exact (h.vacant n hn).put hvacant (by simp only [length_slotAt]) content

/-- A file in a slot can be renamed to another slot. -/
theorem rename {m n : Nat} (hm : m ≤ j.backups) (hn : n ≤ j.backups) {content : ByteArray}
    (found : t.lookup? (j.slotAt l m) = some (.file content)) :
    ∃ u, t.rename (j.slot m) (j.slot n) = .ok u ∧ j.Housed l u ∧
      ∀ k, k ≠ j.slotAt l m → k ≠ j.slotAt l n → u.lookup? k = t.lookup? k := by
  have vacant_m := h.vacant m hm
  have vacant_n := h.vacant n hn
  by_cases ne : j.slotAt l m = j.slotAt l n
  · refine ⟨t, ?_, h, fun _ _ _ => rfl⟩
    unfold Tree.rename
    simp only [h.slots m hm, h.slots n hn, ← ne, found, if_true]
  · refine ⟨_, Tree.rename_eq_moved (h.slots m hm) (h.slots n hn) vacant_m vacant_n found (h.room n)
      ne, ?_, fun k hkm hkn => ?_⟩
    · refine h.keeps (Tree.keeps_moved vacant_m vacant_n content) fun i hi => ?_
      exact (h.vacant i hi).moved vacant_m vacant_n (by simp only [length_slotAt]) content
    · rw [Tree.lookup?_moved vacant_m vacant_n, if_neg hkn, if_neg hkm]

/-- The backups can be moved on, and the file stays. -/
theorem shift {n : Nat} (hn : n + 1 ≤ j.backups) :
    ∃ u, (j.shift n).on t = (.ok (), u) ∧ j.Housed l u ∧
      u.lookup? (j.slotAt l 0) = t.lookup? (j.slotAt l 0) := by
  -- The last backup moves first, so each one finds its new slot free or overwrites a file.
  induction n generalizing t with
  | zero => exact ⟨t, rfl, h, rfl⟩
  | succ n ih =>
    have hcontains : t.contains (j.backup (n + 1)) =
        .ok (t.lookup? (j.slotAt l (n + 1))).isSome := by
      have hlocate : t.locate (j.backup (n + 1)) = _ := h.slots (n + 1) (by omega)
      simp only [Tree.contains, hlocate]
    unfold Journal.shift
    simp only [Filing.on_bind, Filing.on_look, hcontains]
    cases hfound : t.lookup? (j.slotAt l (n + 1)) with
    | none =>
      simp only [Option.isSome_none, Bool.false_eq_true, if_false]
      exact ih h (by omega)
    | some x =>
      cases x with
      | directory => exact absurd hfound (h.vacant (n + 1) (by omega)).lookup
      | file content =>
        obtain ⟨u, hu, hhoused, hsame⟩ := h.rename (m := n + 1) (n := n + 2) (by omega) hn hfound
        have hrename : t.rename (j.backup (n + 1)) (j.backup (n + 2)) = .ok u := hu
        simp only [Option.isSome_some, if_true, Filing.on_bind, Filing.on_change, hrename]
        obtain ⟨v, hv, hhoused, hstill⟩ := ih hhoused (by omega)
        refine ⟨v, hv, hhoused, hstill.trans (hsame _ ?_ ?_)⟩
        · exact (slotAt_succ_ne_zero j l n).symm
        · exact (slotAt_succ_ne_zero j l (n + 1)).symm

/-- The file can become the first backup. -/
theorem rotate {content : ByteArray} (found : t.lookup? (j.slotAt l 0) = some (.file content)) :
    ∃ u, (j.rotate).on t = (.ok (), u) ∧ j.Housed l u := by
  have hpos := j.backups_pos
  obtain ⟨u, hu, hhoused, hsame⟩ := h.shift (n := j.backups - 1) (by omega)
  obtain ⟨v, hv, hhoused, -⟩ :=
    hhoused.rename (m := 0) (n := 1) (by omega) (by omega) (hsame.trans found)
  have hrename : u.rename j.path (j.backup 1) = .ok v := hv
  obtain ⟨start, hstart⟩ := hhoused.append .empty
  refine ⟨_, ?_, hhoused.put start⟩
  unfold Journal.rotate
  simp only [Filing.on_bind, hu, Filing.on_change, hrename, hstart]

/-- An event can be stored. -/
theorem store (e : Event) : ∃ u, (j.store e).on t = (.ok (), u) ∧ j.Housed l u := by
  obtain ⟨content, hcontent⟩ := h.append (encode (e.line ++ "\n"))
  have hput := h.put content
  have hvacant := h.vacant 0 (Nat.zero_le _)
  have hfound : (t.put (j.slotAt l 0) (.file content)).lookup? (j.slotAt l 0) =
      some (.file content) := by
    rw [Tree.lookup?_put t _ _ hvacant.apart, if_pos rfl]
  have hsize : (t.put (j.slotAt l 0) (.file content)).size j.path = .ok content.size := by
    have hlocate : (t.put (j.slotAt l 0) (.file content)).locate j.path = _ :=
      hput.slots 0 (Nat.zero_le _)
    simp only [Tree.size, Tree.at?, hlocate, hfound]
  unfold Journal.store Journal.appendLine
  simp only [Filing.on_bind, Filing.on_attempt, h.makeDirectories, Filing.on_change, hcontent,
    Filing.on_look, hsize]
  split
  · exact hput.rotate hfound
  · exact ⟨_, rfl, hput⟩

omit h in
/-- A journal with its directory and its places is writable. -/
theorem writable (h : j.Housed l t) : j.Writable t :=
  writable_of_kind (fun _ ht e => ht.store e) h

end Housed

end Audit.Journal

end Pinhole
