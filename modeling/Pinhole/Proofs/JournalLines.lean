import Pinhole.Proofs.JsonText
import Pinhole.Proofs.Rotation

/-!
# The lines of a journal

A journal that has not been rotated holds one line for each event, and each line tells its event:
`journal_tells_events`. An event is stored as JSON, which is read back (`Event.read_line`) and which
has no line feeds, whatever the texts of the event are. So no event can be taken for two, and none
for another.
-/

namespace Pinhole

/-! ## Files that grow -/

namespace Files.Tree

variable {t u v : Tree} {l : Location} {p : Path}

/-- What was found is still found, and what is found besides is directories. -/
structure Grows (t u : Tree) : Prop where
  here : u.here = t.here
  kept : ∀ k e, t.lookup? k = some e → u.lookup? k = some e
  made : ∀ k e, u.lookup? k = some e → t.lookup? k = some e ∨ e = .directory

theorem Grows.refl (t : Tree) : t.Grows t := ⟨rfl, fun _ _ h => h, fun _ _ h => Or.inl h⟩

theorem Grows.trans (h : t.Grows u) (h' : u.Grows v) : t.Grows v where
  here := h'.here.trans h.here
  kept k e hk := h'.kept k e (h.kept k e hk)
  made k e hk := (h'.made k e hk).elim (h.made k e) Or.inr

theorem Grows.keeps (h : t.Grows u) : t.Keeps u := ⟨h.here, fun k hk => h.kept k _ hk⟩

theorem Keeps.trans (h : t.Keeps u) (h' : u.Keeps v) : t.Keeps v :=
  ⟨h'.here.trans h.here, fun k hk => h'.directory k (h.directory k hk)⟩

/-- A directory is made where the path leads to, if nothing is there. -/
theorem makeDirectory_eq_ok (made : t.makeDirectory p = .ok u) :
    ∃ l, t.locate p = .ok l ∧ t.lookup? l = none ∧ u = t.put l .directory := by
  unfold makeDirectory at made
  split at made
  · cases made
  rename_i l leads
  split at made
  · cases made
  rename_i free
  split at made
  · cases made
    exact ⟨l, leads, free, rfl⟩
  · cases made

theorem grows_makeDirectory (made : t.makeDirectory p = .ok u) : t.Grows u := by
  obtain ⟨l, -, free, rfl⟩ := makeDirectory_eq_ok made
  have found (k : Location) : (t.put l .directory).lookup? k =
      if k = l then some .directory else t.lookup? k :=
    t.lookup?_put .directory k (isPrefixOf_here_eq_false (by simp [free]))
  refine ⟨rfl, fun k e hk => ?_, fun k e hk => ?_⟩
  · have ne : k ≠ l := by
      rintro rfl
      rw [free] at hk
      cases hk
    rw [found, if_neg ne, hk]
  · rw [found] at hk
    split at hk
    · exact Or.inr (Option.some.inj hk).symm
    · exact Or.inl hk

/-- Directories are made one by one, each for a beginning of the path. What is true of making one
and carries over from step to step is true of making all of them, even if that fails half-way. -/
theorem makeDirectories_induction {R : Tree → Tree → Prop} (refl : ∀ t, R t t)
    (trans : ∀ {t u v}, R t u → R u v → R t v)
    (step : ∀ {t u} n, t.makeDirectory { p with parts := p.parts.take n } = .ok u → R t u)
    (t : Tree) : R t (t.makeDirectories p).2 := by
  have settled (t : Tree) (n : Nat) :
      let q : Path := { p with parts := p.parts.take n }
      R t (t.settle q (t.makeDirectory q)).2 := by
    intro q
    cases made : t.makeDirectory q with
    | ok u => exact step n made
    | error o => exact refl t
  have steps (n : Nat) (t : Tree) : R t (makeDirectories.go p t n).2 := by
    induction n generalizing t with
    | zero => exact settled t 0
    | succ n ih =>
      have last := settled t (n + 1)
      unfold makeDirectories.go
      dsimp only
      split
      · rename_i same made
        obtain rfl := Nat.succ.inj same
        have before := ih t
        split
        · rename_i u hgo
          rw [hgo] at before
          exact trans before (settled u _)
        · exact before
      · exact last
  exact steps _ t

/-- Making directories leaves all files alone, even if it fails half-way. -/
theorem grows_makeDirectories (t : Tree) (p : Path) : t.Grows (t.makeDirectories p).2 :=
  makeDirectories_induction .refl .trans (fun _ made => grows_makeDirectory made) t

/-- The bytes of the file at a place; there are none if no file is there. -/
def contentAt (t : Tree) (l : Location) : ByteArray :=
  match t.lookup? l with
  | some (.file content) => content
  | _ => .empty

theorem Grows.contentAt_eq (h : t.Grows u) (l : Location) : u.contentAt l = t.contentAt l := by
  unfold contentAt
  cases hl : t.lookup? l with
  | some e => rw [h.kept l e hl]
  | none =>
    cases hl' : u.lookup? l with
    | none => rfl
    | some e =>
      rcases h.made l e hl' with found | rfl
      · rw [hl] at found
        cases found
      · rfl

/-- Adding to a file keeps what was in it in front, and leaves all other places alone. -/
theorem append_eq_ok {more : ByteArray} (done : t.append p more = .ok u) :
    ∃ l, t.Keeps u ∧ u.locate p = .ok l ∧
      u.lookup? l = some (.file (t.contentAt l ++ more)) ∧
      ∀ k, k ≠ l → u.lookup? k = t.lookup? k := by
  unfold append at done
  cases opened : t.openFile p with
  | error f =>
    rw [opened] at done
    cases done
  | ok place =>
    obtain ⟨l, content⟩ := place
    rw [opened] at done
    cases done
    obtain ⟨leads, noDirectory⟩ := locate_of_openFile opened
    have hcontent : content = t.contentAt l := by
      unfold openFile at opened
      rw [leads] at opened
      dsimp only at opened
      unfold contentAt
      split at opened
      · cases opened
      · rename_i found
        cases opened
        rw [found]
      · rename_i free
        split at opened
        · cases opened
          rw [free]
        · cases opened
    have keeps := keeps_put noDirectory (content ++ more)
    have apart := isPrefixOf_here_eq_false noDirectory
    refine ⟨l, keeps, keeps.locate leads, ?_, fun k hk => ?_⟩
    · rw [lookup?_put _ _ _ apart, if_pos rfl, hcontent]
    · rw [lookup?_put _ _ _ apart, if_neg hk]

end Files.Tree

namespace Audit.Journal

open Files

variable {j : Journal} {t u : Tree} {es : List Event} {e : Event}

/-! ## Files without rotation -/

/-- A line that is added to the file stands behind what was there, and all other files are left
alone. -/
theorem appendLine_eq_ok {line : String} (done : (j.appendLine line).on t = (.ok (), u)) :
    ∃ l, t.Keeps u ∧ u.locate j.path = .ok l ∧
      u.lookup? l = some (.file (t.contentAt l ++ encode (line ++ "\n"))) ∧
      ∀ k e, k ≠ l → t.lookup? k = some e → u.lookup? k = some e := by
  unfold appendLine at done
  obtain ⟨_, v, made, appended⟩ := Filing.on_bind_eq_ok.1 done
  rw [Filing.on_change_eq_ok] at appended
  have grows : t.Grows v := by
    have hmade := t.grows_makeDirectories j.path.parent
    rw [Filing.on_attempt] at made
    rwa [made] at hmade
  obtain ⟨l, keeps, leads, found, others⟩ := Tree.append_eq_ok appended
  rw [grows.contentAt_eq] at found
  exact ⟨l, grows.keeps.trans keeps, leads, found,
    fun k e ne there => (others k ne).trans (grows.kept k e there)⟩

/-- Storing an event adds its line, unless the file outgrows its limit. -/
theorem appendLine_of_store (done : (j.store e).on t = (.ok (), u))
    (fits : j.outgrows e t = false) : (j.appendLine e.line).on t = (.ok (), u) := by
  unfold Journal.store at done
  obtain ⟨_, v, appended, done⟩ := Filing.on_bind_eq_ok.1 done
  obtain ⟨size, w, looked, done⟩ := Filing.on_bind_eq_ok.1 done
  unfold outgrows at fits
  simp only [Filing.on_bind, appended, looked, decide_eq_false_iff_not] at fits
  obtain ⟨-, rfl⟩ := Filing.on_look_eq_ok.1 looked
  rw [if_neg fits] at done
  cases done
  exact appended

/-- Without a rotation the file holds the lines of all events behind what it held before. -/
theorem content_of_logAll (enabled : j.enabled = true) (logged : j.logAll t es = some (u, 0)) :
    es = [] ∧ u = t ∨ ∃ l, u.locate j.path = .ok l ∧
      u.lookup? l = some (.file (t.contentAt l ++ encode (lines es))) := by
  induction es using List.reverseRecOn generalizing u with
  | nil =>
    cases logged
    exact Or.inl ⟨rfl, rfl⟩
  | append_singleton es e ih =>
    rw [logAll_concat] at logged
    obtain ⟨⟨w, n⟩, before, next⟩ := Option.bind_eq_some_iff.1 logged
    obtain ⟨done, hn⟩ := log_of_logNext next
    obtain ⟨rfl, fits⟩ : n = 0 ∧ j.outgrows e w = false := by
      split at hn
      · cases hn
      · exact ⟨hn.symm, Bool.eq_false_iff.2 ‹_›⟩
    obtain ⟨l, keeps, leads, found, -⟩ :=
      appendLine_eq_ok (appendLine_of_store (store_of_log enabled done) fits)
    refine Or.inr ⟨l, leads, ?_⟩
    rw [found, encode_lines_concat, ← ByteArray.append_assoc]
    congr 2
    rcases ih before with ⟨rfl, rfl⟩ | ⟨k, hk, content⟩
    · simp [lines, encode]
    · obtain rfl : l = k := Except.ok.inj (leads.symm.trans (keeps.locate hk))
      rw [Tree.contentAt, content]

end Audit.Journal

/-! ## The lines of events -/

namespace Audit

variable {e f : Event} {es : List Event}

theorem EventKind.name_injective : Function.Injective name := fun a b h =>
  Option.some.inj (by rw [← ofName?_name a, h, ofName?_name])

theorem Ending.name_injective : Function.Injective name := fun a b h =>
  Option.some.inj (by rw [← ofName?_name a, h, ofName?_name])

theorem Event.optional_injective : Function.Injective optional := by
  intro s s' h
  cases s <;> cases s' <;> cases h <;> rfl

/-- The fields of an event tell which event it is. -/
theorem Event.record_injective : Function.Injective record := by
  have texts {ss ss' : List String} (h : ss.map Value.text = ss'.map .text) : ss = ss' :=
    List.map_injective_iff.2 (fun _ _ => Value.text.inj) h
  intro e f h
  simp only [record, Value.record, List.map_cons, List.map_nil, Value.mapping.injEq,
    List.cons.injEq, Prod.mk.injEq, Value.text.injEq, Value.list.injEq, Value.int.injEq, true_and,
    and_true] at h
  obtain ⟨correlation, error, kind, interface, port, protocol, remaining, ending, time, uid,
    users⟩ := h
  cases e
  cases f
  simp only [mk.injEq]
  exact ⟨EventKind.name_injective kind, Ending.name_injective ending, interface,
    optional_injective protocol, port, texts users, texts remaining, optional_injective error,
    congr (congrArg Stamp.mk uid) time, optional_injective correlation⟩

/-- The port of an event is an integer, or there is none. -/
def Event.Numbered (e : Event) : Prop := e.port = .null ∨ ∃ n, e.port = .int n

/-- The fields of an event are told by their text. -/
theorem Event.Numbered.tellable (h : e.Numbered) : Json.Tellable e.record := by
  have optional (s : Option String) : Json.Tellable (Event.optional s) := by
    cases s with
    | none => exact .null
    | some s => exact .text s
  have texts (ss : List String) : Json.Tellable (.list (ss.map .text)) :=
    .list (List.forall_mem_map.2 fun s _ => .text s)
  have port : Json.Tellable e.port := by
    rcases h with h | ⟨n, h⟩
    · exact h ▸ .null
    · exact h ▸ .int n
  have keys : ["correlation_id", "error", "event_type", "interface", "port", "protocol",
      "remaining", "result", "timestamp", "uid", "usernames"].Pairwise (· < ·) := by
    decide +kernel
  refine .record (List.pairwise_map.1 keys) ?_
  simp only [List.forall_mem_cons, List.not_mem_nil, false_imp_iff, implies_true, and_true]
  exact ⟨optional _, optional _, .text _, .text _, port, optional _, texts _, .text _, .text _,
    .int _, texts _⟩

namespace Event.Numbered

variable (h : e.Numbered)

include h

/-- The line of an event is read back as the fields of the event. -/
theorem read_line : Json.read e.line = some e.record := Json.read_write h.tellable

theorem visible_line : Json.Visible e.line := h.tellable.visible

/-- The line of an event is one line. -/
theorem feed_not_mem_line : '\n' ∉ e.line.toList :=
  fun mem => absurd (h.visible_line _ mem).1 (by decide)

theorem line_ne_empty : e.line ≠ "" := by
  intro empty
  have hread := h.read_line
  rw [empty] at hread
  cases hread

end Event.Numbered

namespace Journal

open Files

theorem toList_lines_cons (e : Event) (es : List Event) :
    (lines (e :: es)).toList = e.line.toList ++ '\n' :: (lines es).toList := by
  have hfeed : "\n".toList = ['\n'] := rfl
  rw [← List.singleton_append, lines_append, String.toList_append, lines, List.map_singleton,
    String.join_cons, String.join_nil, String.append_empty, String.toList_append, hfeed,
    List.append_assoc]
  rfl

/-- The lines of events are parted by line feeds, and nothing stands behind the last one. -/
theorem splitOn_lines (numbered : ∀ e ∈ es, e.Numbered) :
    (lines es).toList.splitOn '\n' = es.map (·.line.toList) ++ [[]] := by
  induction es with
  | nil => rfl
  | cons e es ih =>
    obtain ⟨he, hes⟩ := List.forall_mem_cons.1 numbered
    rw [toList_lines_cons, List.splitOn_append_cons_self_of_not_mem he.feed_not_mem_line, ih hes]
    rfl

theorem ascii_lines (numbered : ∀ e ∈ es, e.Numbered) :
    ∀ c ∈ (lines es).toList, c.toNat < 0x80 := by
  induction es with
  | nil => exact nofun
  | cons e es ih =>
    obtain ⟨he, hes⟩ := List.forall_mem_cons.1 numbered
    intro c mem
    rw [toList_lines_cons, List.mem_append, List.mem_cons] at mem
    rcases mem with mem | rfl | mem
    · exact Nat.lt_trans (he.visible_line c mem).2 (by decide)
    · decide
    · exact ih hes c mem

/-- The bytes of a text of ASCII are ASCII. -/
theorem ascii_encode {s : String} (ascii : ∀ c ∈ s.toList, c.toNat < 0x80) :
    ∀ b ∈ (encode s).data, b < 0x80 := by
  have bytes : (encode s).data.toList = s.toList.flatMap String.utf8EncodeChar := by
    rw [encode, String.toUTF8_eq_toByteArray, ← String.utf8Encode_toList, List.utf8Encode,
      List.toList_data_toByteArray]
  intro b mem
  rw [← Array.mem_toList_iff, bytes] at mem
  obtain ⟨c, hc, hb⟩ := List.mem_flatMap.1 mem
  have small : c.val ≤ 127 := UInt32.le_iff_toNat_le.2 (Nat.le_of_lt_succ (ascii c hc))
  rw [String.utf8EncodeChar_eq_singleton (Char.utf8Size_eq_one_iff.2 small),
    List.mem_singleton] at hb
  have below : c.val.toNat < 0x80 := ascii c hc
  rw [hb, UInt8.lt_iff_toNat_lt, UInt32.toNat_toUInt8]
  exact Nat.lt_of_le_of_lt (Nat.mod_le _ _) below

/-- Let a journal log events without any operation on files failing, and without rotating its file,
in which nothing was before. Let the ports of events be integers of any size, or none, and all their
texts whatever they are. Then

* the bytes of the file are ASCII, and the line feeds in it part it into one line for each event, in
  their order, and nothing behind the last one;
* each line is not empty and tells all fields of its event, so that different events have different
  lines. -/
theorem journal_tells_events {j : Journal} (enabled : j.enabled = true) {t u : Tree}
    {es : List Event} (numbered : ∀ e ∈ es, e.Numbered) (logged : j.logAll t es = some (u, 0))
    (new : ∀ l, u.locate j.path = .ok l → t.contentAt l = .empty) :
    (es = [] → u = t) ∧
    (es ≠ [] → ∃ l content text, u.locate j.path = .ok l ∧ u.lookup? l = some (.file content) ∧
      (∀ b ∈ content.data, b < 0x80) ∧ decode? content = some text ∧
      text.toList.splitOn '\n' = es.map (·.line.toList) ++ [[]]) ∧
    (∀ e ∈ es, e.line ≠ "" ∧ Json.read e.line = some e.record) ∧
    (∀ e f : Event, e.record = f.record → e = f) ∧
    ∀ e ∈ es, ∀ f ∈ es, e.line = f.line → e = f := by
  refine ⟨fun none => ?_, fun ne => ?_, fun e he => ?_, Event.record_injective,
    fun e he f hf same => ?_⟩
  · subst none
    cases logged
    rfl
  · obtain ⟨l, leads, found⟩ := (content_of_logAll enabled logged).resolve_left fun h => ne h.1
    rw [new l leads, ByteArray.empty_append] at found
    exact ⟨l, _, lines es, leads, found, ascii_encode (ascii_lines numbered), decode?_encode _,
      splitOn_lines numbered⟩
  · exact ⟨(numbered e he).line_ne_empty, (numbered e he).read_line⟩
  · refine Event.record_injective (Option.some.inj ?_)
    rw [← (numbered e he).read_line, ← (numbered f hf).read_line, same]

/-- Two events are logged, with texts that look like other lines, into a directory that is made for
them. -/
theorem journal_tells_awkward_events :
    let j : Journal := { path := .ofText "log/audit.log" }
    let es : List Event :=
      [.holePunched ⟨-1, "\x00"⟩ .failure "tcp" (.int 1180591620717411303424) "\"\x7d\n\x7b\""
          (some "\\u000a\u2028"),
        { Event.holesPlugged ⟨0, "now\r\n"⟩ .success ["tcp:22 😀", "null"] with
          correlation := some "hold-\n" }]
    ∃ u l content text, j.logAll {} es = some (u, 0) ∧ u.lookup? l = some (.file content) ∧
      (∀ b ∈ content.data, b < 0x80) ∧ decode? content = some text ∧
      text.toList.splitOn '\n' = es.map (·.line.toList) ++ [[]] ∧
      ∀ e ∈ es, Json.read e.line = some e.record := by
  intro j es
  have works : (j.logAll {} es).map (·.2) = some 0 := by decide +kernel
  obtain ⟨⟨u, n⟩, logged, rfl⟩ := Option.map_eq_some_iff.1 works
  have numbered : ∀ e ∈ es, e.Numbered := by
    refine List.forall_mem_cons.2 ⟨Or.inr ⟨_, rfl⟩, List.forall_mem_cons.2 ⟨Or.inl rfl, nofun⟩⟩
  have new (l : Location) (_ : u.locate j.path = .ok l) : ({} : Tree).contentAt l = .empty := by
    cases l <;> rfl
  obtain ⟨-, file, told, -⟩ := journal_tells_events rfl numbered logged new
  obtain ⟨l, content, text, -, found, ascii, decoded, split⟩ := file (by simp [es])
  exact ⟨u, l, content, text, logged, found, ascii, decoded, split, fun e he => (told e he).2⟩

end Journal

end Audit

end Pinhole
