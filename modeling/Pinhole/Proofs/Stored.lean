import Mathlib.Data.List.Basic
import Pinhole.Proofs.Records
import Pinhole.Yaml.Source

/-!
# Texts that are stored

What has been written is read back: a path from its text (`Path.Plain.ofText_text`), a document from
the bytes of its text (`Source.ofBytes_encode`), and the bytes of a file from the path that they were
written to (`Tree.read_of_write`).
-/

namespace Pinhole

/-! ## Paths -/

namespace Path

theorem not_mem_of_mem_splitOn {cs w : List Char} (h : w ∈ cs.splitOn '/') : '/' ∉ w := by
  induction cs generalizing w with
  | nil => simp_all
  | cons c cs ih =>
    rw [List.splitOn_cons_eq_if_modifyHead] at h
    split_ifs at h with slash
    · rcases List.mem_cons.1 h with rfl | h
      · exact List.not_mem_nil
      · exact ih h
    · obtain ⟨first, others, hsplit⟩ := List.exists_cons_of_ne_nil (List.splitOn_ne_nil '/' cs)
      rw [hsplit, List.modifyHead_cons] at h
      rcases List.mem_cons.1 h with rfl | h
      · rw [List.mem_cons, not_or]
        exact ⟨fun e => slash (beq_iff_eq.2 e.symm), ih (hsplit ▸ List.mem_cons_self)⟩
      · exact ih (hsplit ▸ List.mem_cons_of_mem _ h)

/-- A path whose names say where to go, as the path of a text does. -/
structure Plain (p : Path) : Prop where
  slashes : p.slashes ≤ 2
  parts : ∀ name ∈ p.parts, isPart name = true ∧ '/' ∉ name.toList

theorem plain_ofText (s : String) : (ofText s).Plain := by
  refine ⟨?_, fun name h => ?_⟩
  · simp only [ofText]
    split_ifs <;> omega
  · obtain ⟨mem, fit⟩ := List.mem_filter.1 h
    obtain ⟨w, hw, rfl⟩ := List.mem_map.1 mem
    exact ⟨fit, by simpa using not_mem_of_mem_splitOn hw⟩

variable {p : Path}

/-- The slashes in front of a text leave nothing but empty names in front of its own. -/
theorem splitOn_replicate (k : Nat) (cs : List Char) :
    (List.replicate k '/' ++ cs).splitOn '/' = List.replicate k [] ++ cs.splitOn '/' := by
  induction k with
  | zero => rfl
  | succ k ih => simp [List.replicate_succ, List.splitOn_cons_eq_if_modifyHead, ih]

/-- The names of a path in a row do not begin with a slash. -/
theorem Plain.takeWhile_names (h : p.Plain) :
    ("/".intercalate p.parts).toList.takeWhile (· == '/') = [] := by
  rw [String.toList_intercalate]
  cases hparts : p.parts with
  | nil => rfl
  | cons name names =>
    obtain ⟨fit, noSlash⟩ := h.parts name (hparts ▸ List.mem_cons_self)
    cases hname : name.toList with
    | nil =>
      rw [String.toList_eq_nil_iff.1 hname] at fit
      cases fit
    | cons c cs =>
      rw [hname, List.mem_cons, not_or] at noSlash
      rw [List.map_cons, hname, List.intercalate_cons_cons_left,
        List.takeWhile_cons_of_neg (by simpa using Ne.symm noSlash.1)]

/-- The names of a path in a row are taken apart again. -/
theorem Plain.splitOn_names (h : p.Plain) :
    ((("/".intercalate p.parts).toList.splitOn '/').map String.ofList).filter isPart = p.parts := by
  have fit : p.parts.filter isPart = p.parts :=
    List.filter_eq_self.2 fun name mem => (h.parts name mem).1
  rw [String.toList_intercalate]
  cases hparts : p.parts with
  | nil => decide
  | cons name names =>
    have apart : ∀ w ∈ (name :: names).map String.toList, '/' ∉ w := by
      intro w hw
      obtain ⟨part, mem, rfl⟩ := List.mem_map.1 hw
      exact (h.parts part (hparts ▸ mem)).2
    have split := List.splitOn_intercalate '/' apart (by simp)
    rw [hparts] at fit
    have same : ((name :: names).map String.toList).map String.ofList = name :: names := by
      simp [Function.comp_def]
    exact (congrArg (fun ws => (ws.map String.ofList).filter isPart) split).trans
      ((congrArg (List.filter isPart) same).trans fit)

/-- A path is read back from its text. -/
theorem Plain.ofText_text (h : p.Plain) : ofText p.text = p := by
  obtain ⟨slashes, parts⟩ := p
  have bound : slashes ≤ 2 := h.slashes
  rw [text]
  split_ifs with none
  · obtain ⟨rfl, rfl⟩ : slashes = 0 ∧ parts = [] := none
    decide
  · have front := h.takeWhile_names
    have names := h.splitOn_names
    have lead : ((List.replicate slashes '/' ++ ("/".intercalate parts).toList).takeWhile
        (· == '/')).length = slashes := by
      rw [List.takeWhile_append_of_pos (by simp)]
      simp_all
    rw [ofText]
    simp only [String.toList_append, String.toList_ofList]
    rw [lead, if_pos bound, splitOn_replicate, List.map_append, List.filter_append]
    have empty : ((List.replicate slashes ([] : List Char)).map String.ofList).filter isPart = [] := by
      simp [isPart]
    rw [empty]
    simpa using names

end Path

/-! ## Documents -/

/-- A text of characters that documents may hold, without carriage returns, is a source as it
stands. -/
theorem Yaml.Source.ofBytes_encode {s : String} (fit : ∀ c ∈ s.toList, isDocumentChar c = true)
    (noReturn : '\r' ∉ s.toList) : ofBytes (Files.encode s) = ⟨s.toList, none⟩ := by
  have lines : Files.decodeLines? (Files.encode s) = some s := by
    rw [Files.decodeLines?, Files.decode?_encode, Option.map_some, Files.evenLines_of_not_mem noReturn,
      String.ofList_toList]
  rw [ofBytes, lines]
  exact ofText_of_all fit

/-! ## Files -/

namespace Files.Tree

variable {t t' : Tree} {p : Path} {bytes : ByteArray}

/-- What was written to a path is read back, unless the file is locked. -/
theorem read_of_write (written : t.write p bytes = .ok t')
    (unlocked : ∀ l, t.locate p = .ok l → l ∉ t.locked) :
    t'.contains p = .ok true ∧ t'.read p = .ok bytes := by
  rw [write] at written
  cases opened : t.openFile p with
  | error f =>
    rw [opened] at written
    cases written
  | ok place =>
    obtain ⟨l, old⟩ := place
    rw [opened] at written
    cases written
    obtain ⟨leads, noDirectory⟩ := locate_of_openFile opened
    have leads' : (t.put l (.file bytes)).locate p = .ok l :=
      (keeps_put noDirectory bytes).locate leads
    have found : (t.put l (.file bytes)).lookup? l = some (.file bytes) := by
      rw [lookup?_put t _ _ (isPrefixOf_here_eq_false noDirectory), if_pos rfl]
    have readable : l ∉ (t.put l (.file bytes)).locked := unlocked l leads
    constructor
    · simp [contains, leads', found]
    · simp [read, leads', found, readable]

end Files.Tree

end Pinhole
