import Mathlib.Data.List.Infix
import Mathlib.Data.List.TakeWhile
import Pinhole.Console.Markup

/-!
# Texts in markup

A text in which there are no tags and no escaped brackets is taken as it stands
(`plainOf_of_plain`). Every other text loses some of what could be seen of it
(`ink_lt_of_plainOf`), so there is no other text that is taken as it stands. What can be seen of a
text is measured by its characters that are no blanks.
-/

namespace Pinhole

/-- The number of characters of a text that are no blanks. -/
def Text.ink (cs : List Char) : Nat := cs.countP (!isBlank ·)

namespace Text

@[simp] theorem ink_nil : ink [] = 0 := rfl

@[simp] theorem ink_append (as bs : List Char) : ink (as ++ bs) = ink as + ink bs :=
  List.countP_append

theorem ink_cons (c : Char) (cs : List Char) : ink (c :: cs) = ink [c] + ink cs :=
  ink_append [c] cs

@[simp] theorem ink_reverse (cs : List Char) : ink cs.reverse = ink cs := List.countP_reverse

/-- Leaving characters out leaves no more to be seen. -/
theorem ink_le_of_sublist {as bs : List Char} (h : as.Sublist bs) : ink as ≤ ink bs := h.countP_le

/-- A text is its beginning in a class and the rest of it, which does not begin in the class. -/
theorem takeWhile_append_drop (p : Char → Bool) (cs : List Char) :
    cs.takeWhile p ++ cs.drop (cs.takeWhile p).length = cs ∧
      ∀ c ∈ (cs.drop (cs.takeWhile p).length).head?, p c = false := by
  have whole : cs.takeWhile p ++ cs.drop (cs.takeWhile p).length = cs :=
    List.prefix_iff_eq_append.1 (List.takeWhile_prefix p)
  have same : cs.drop (cs.takeWhile p).length = cs.dropWhile p :=
    List.append_cancel_left (whole.trans List.takeWhile_append_dropWhile.symm)
  refine ⟨whole, fun c first => ?_⟩
  rw [same, ← List.find?_not_eq_head?_dropWhile] at first
  simpa using List.find?_some first

end Text

namespace Markup

open Text

variable {cs bs : List Char} {c : Char}

/-! ## Tags -/

/-- A tag with its brackets stands somewhere in a text. -/
def HoldsTag (cs : List Char) : Prop :=
  ∃ front c bs rest, isTagStart c = true ∧ (∀ d ∈ bs, d ≠ '[' ∧ d ≠ ']') ∧
    cs = front ++ ('[' :: c :: bs ++ ']' :: rest)

/-- A bracket with a backslash in front of it stands somewhere in a text. -/
def HoldsEscape (cs : List Char) : Prop := ['\\', '['] <:+: cs

/-- A tag is what its brackets enclose. -/
theorem tag?_eq_some_iff {body rest : List Char} : tag? cs = some (body, rest) ↔
    ∃ c bs, isTagStart c = true ∧ (∀ d ∈ bs, d ≠ '[' ∧ d ≠ ']') ∧ body = c :: bs ∧
      cs = '[' :: c :: bs ++ ']' :: rest := by
  constructor
  · intro h
    unfold tag? at h
    split at h
    · rename_i c cs
      dsimp only at h
      split at h
      · rename_i rest hdrop
        split at h
        · rename_i start
          obtain ⟨rfl, rfl⟩ := Prod.mk.inj (Option.some.inj h)
          refine ⟨c, _, start, fun d hd => by simpa using List.mem_takeWhile_imp hd, rfl, ?_⟩
          have whole := (takeWhile_append_drop (fun d => d != '[' && d != ']') cs).1
          rw [hdrop] at whole
          rw [List.cons_append, List.cons_append, whole]
        · cases h
      · cases h
    · cases h
  · rintro ⟨c, bs, start, enclosed, rfl, rfl⟩
    have body : (bs ++ ']' :: rest).takeWhile (fun d => d != '[' && d != ']') = bs := by
      rw [List.takeWhile_append_of_pos fun d hd => by simpa using enclosed d hd]
      simp
    simp only [tag?, List.cons_append, body, List.drop_left, start, if_true]

theorem holdsTag_iff : HoldsTag cs ↔ ∃ s, s <:+ cs ∧ (tag? s).isSome = true := by
  constructor
  · rintro ⟨front, c, bs, rest, start, enclosed, rfl⟩
    refine ⟨_, List.suffix_append front _, Option.isSome_iff_exists.2 ⟨(c :: bs, rest), ?_⟩⟩
    exact tag?_eq_some_iff.2 ⟨c, bs, start, enclosed, rfl, rfl⟩
  · rintro ⟨s, ⟨front, rfl⟩, found⟩
    obtain ⟨⟨body, rest⟩, found⟩ := Option.isSome_iff_exists.1 found
    obtain ⟨c, bs, start, enclosed, -, rfl⟩ := tag?_eq_some_iff.1 found
    exact ⟨front, c, bs, rest, start, enclosed, rfl⟩

instance : DecidablePred HoldsTag := fun cs =>
  decidable_of_iff (∃ s ∈ cs.tails, (tag? s).isSome = true) (by simp [holdsTag_iff])

instance : DecidablePred HoldsEscape := fun cs =>
  inferInstanceAs (Decidable (['\\', '['] <:+: cs))

/-- A tag stands at the front of a text or further back. -/
theorem holdsTag_cons_iff : HoldsTag (c :: cs) ↔ (tag? (c :: cs)).isSome = true ∨ HoldsTag cs := by
  simp only [holdsTag_iff, List.suffix_cons_iff]
  constructor
  · rintro ⟨s, rfl | inside, found⟩
    · exact Or.inl found
    · exact Or.inr ⟨s, inside, found⟩
  · rintro (found | ⟨s, inside, found⟩)
    · exact ⟨_, Or.inl rfl, found⟩
    · exact ⟨s, Or.inr inside, found⟩

theorem not_holdsTag_nil : ¬ HoldsTag [] := by
  rintro ⟨front, c, bs, rest, -, -, h⟩
  simp at h

/-- What stands in front of a text and has no bracket makes no tag. -/
theorem holdsTag_append_iff {front : List Char} (h : '[' ∉ front) :
    HoldsTag (front ++ cs) ↔ HoldsTag cs := by
  induction front with
  | nil => rfl
  | cons a front ih =>
    obtain ⟨ne, rest⟩ := not_or.1 (mt List.mem_cons.2 h)
    have none : (tag? (a :: (front ++ cs))).isSome = false := by
      unfold tag?
      split
      · rename_i heq
        exact absurd (List.cons.inj heq).1.symm ne
      · rfl
    rw [List.cons_append, holdsTag_cons_iff, ih rest, none]
    simp

/-- A character at the end of a text ends a tag only if it is a bracket. -/
theorem holdsTag_concat_iff (h : c ≠ ']') : HoldsTag (cs ++ [c]) ↔ HoldsTag cs := by
  constructor
  · rintro ⟨front, d, bs, rest, start, enclosed, same⟩
    rcases List.eq_nil_or_concat rest with rfl | ⟨rest, e, rfl⟩
    · have same : cs ++ [c] = (front ++ '[' :: d :: bs) ++ [']'] := by simpa using same
      exact absurd (List.singleton_inj.1 (List.append_inj' same rfl).2) h
    · refine ⟨front, d, bs, rest, start, enclosed, ?_⟩
      have same : cs ++ [c] = (front ++ ('[' :: d :: bs ++ ']' :: rest)) ++ [e] := by
        simpa using same
      exact (List.append_inj' same rfl).1
  · rintro ⟨front, d, bs, rest, start, enclosed, rfl⟩
    exact ⟨front, d, bs, rest ++ [c], start, enclosed, by simp⟩

theorem holdsEscape_append_iff {front : List Char} (h : '\\' ∉ front) :
    HoldsEscape (front ++ cs) ↔ HoldsEscape cs := by
  induction front with
  | nil => rfl
  | cons a front ih =>
    obtain ⟨ne, rest⟩ := not_or.1 (mt List.mem_cons.2 h)
    rw [← ih rest, List.cons_append, HoldsEscape, HoldsEscape, List.infix_cons_iff,
      List.cons_prefix_cons]
    simp [ne]

theorem holdsEscape_concat_iff (h : c ≠ '[') : HoldsEscape (cs ++ [c]) ↔ HoldsEscape cs := by
  rw [HoldsEscape, HoldsEscape, List.infix_concat_iff]
  refine or_iff_right fun last => h ?_
  have := List.suffix_iff_eq_append.1 last
  have := congrArg List.getLast? this
  simpa using this.symm

/-! ## Pieces -/

/-- The plain piece that some characters make. -/
def plainPieces (cs : List Char) : List Piece := if cs.isEmpty then [] else [.plain cs]

/-- The number of characters in plain pieces that are no blanks. -/
def inkOf : List Piece → Nat
  | [] => 0
  | .plain cs :: rest => ink cs + inkOf rest
  | .tag _ :: rest => inkOf rest

@[simp] theorem inkOf_append (ps qs : List Piece) : inkOf (ps ++ qs) = inkOf ps + inkOf qs := by
  induction ps with
  | nil => simp [inkOf]
  | cons p ps ih => cases p <;> simp [inkOf, ih, Nat.add_assoc]

@[simp] theorem inkOf_plainPieces (cs : List Char) : inkOf (plainPieces cs) = ink cs := by
  cases cs <;> rfl

/-- Reading a text comes to a tag behind some backslashes, or goes on by a character. -/
theorem piecesFrom_succ (fuel : Nat) (acc : List Char) (c : Char) (cs : List Char) :
    piecesFrom (fuel + 1) acc (c :: cs) =
      match escapedTag? (c :: cs) with
      | some (slashes, body, after) =>
        plainPieces acc.reverse ++ tagPieces slashes body ++ piecesFrom fuel [] after
      | none => piecesFrom fuel (c :: acc) cs := by
  have flush : (if acc.isEmpty then [] else [Piece.plain acc.reverse]) =
      plainPieces acc.reverse := by simp [plainPieces]
  rw [← flush]
  rfl

theorem piecesFrom_nil (fuel : Nat) (acc : List Char) :
    piecesFrom fuel acc [] = plainPieces acc.reverse := by
  unfold piecesFrom
  cases acc <;> cases fuel <;> simp [plainPieces]

/-- A tag behind some backslashes, in full. -/
theorem escapedTag?_eq_some {n : Nat} {body after : List Char}
    (h : escapedTag? cs = some (n, body, after)) :
    cs = List.replicate n '\\' ++ ('[' :: body ++ ']' :: after) := by
  unfold escapedTag? at h
  dsimp only at h
  obtain ⟨⟨b, r⟩, found, same⟩ := Option.map_eq_some_iff.1 h
  obtain ⟨rfl, rfl, rfl⟩ : (cs.takeWhile (· == '\\')).length = n ∧ b = body ∧ r = after := by
    simpa using same
  obtain ⟨c, bs, -, -, rfl, rest⟩ := tag?_eq_some_iff.1 found
  have slashes : cs.takeWhile (· == '\\') =
      List.replicate (cs.takeWhile (· == '\\')).length '\\' :=
    List.eq_replicate_iff.2 ⟨rfl, fun d hd => by simpa using List.mem_takeWhile_imp hd⟩
  rw [← slashes, ← rest]
  exact (takeWhile_append_drop _ cs).1.symm

/-- Where no tag stands there is none behind backslashes. -/
theorem escapedTag?_eq_none (h : ¬ HoldsTag cs) : escapedTag? cs = none := by
  unfold escapedTag?
  rw [Option.map_eq_none_iff]
  by_contra found
  exact h (holdsTag_iff.2 ⟨_, List.drop_suffix .., Option.isSome_iff_ne_none.2 found⟩)

/-- If there is no tag behind the backslashes in front of a text, there is none in front of it. -/
theorem tag?_eq_none (h : escapedTag? cs = none) : tag? cs = none := by
  cases cs with
  | nil => rfl
  | cons c cs =>
    by_cases slash : c = '\\'
    · subst slash
      rfl
    · simpa [escapedTag?, slash] using h

/-- A text without tags is one piece. -/
theorem piecesFrom_of_not_holdsTag {fuel : Nat} (enough : cs.length ≤ fuel) (acc : List Char)
    (h : ¬ HoldsTag cs) : piecesFrom fuel acc cs = plainPieces (acc.reverse ++ cs) := by
  induction cs generalizing fuel acc with
  | nil => rw [piecesFrom_nil, List.append_nil]
  | cons c cs ih =>
    obtain ⟨fuel, rfl⟩ := Nat.exists_eq_succ_of_ne_zero (Nat.ne_of_gt (Nat.lt_of_lt_of_le
      (Nat.succ_pos cs.length) enough))
    have rest : ¬ HoldsTag cs := fun inside => h (holdsTag_cons_iff.2 (Or.inr inside))
    rw [piecesFrom_succ, escapedTag?_eq_none h]
    simp [ih (Nat.le_of_succ_le_succ enough) (c :: acc) rest]

/-- What a tag behind backslashes leaves to be seen is less than what was there. -/
theorem inkOf_tagPieces_lt (n : Nat) (body after : List Char) :
    inkOf (tagPieces n body) + ink after <
      ink (List.replicate n '\\' ++ ('[' :: body ++ ']' :: after)) := by
  have slashes (m : Nat) : ink (List.replicate m '\\') = m := by
    rw [ink, List.countP_replicate, if_pos (by decide)]
  have brackets : ink ('[' :: body ++ ']' :: after) = ink body + ink after + 2 := by
    rw [List.cons_append, ink_cons, ink_append, ink_cons ']',
      show ink ['['] = 1 from by decide, show ink [']'] = 1 from by decide]
    omega
  have doubled : inkOf (if (List.replicate (n / 2) '\\').isEmpty then []
      else [.plain (List.replicate (n / 2) '\\')]) = n / 2 :=
    (inkOf_plainPieces _).trans (slashes _)
  rw [tagPieces, inkOf_append, doubled, ink_append, slashes, brackets]
  split
  · have plain : inkOf [.plain ('[' :: body ++ [']'])] = ink body + 2 := by
      rw [inkOf, inkOf, List.cons_append, ink_cons, ink_append,
        show ink ['['] = 1 from by decide, show ink [']'] = 1 from by decide]
      omega
    rw [plain]
    omega
  · simp only [inkOf]
    omega

/-- The pieces of a text show no more than the text. -/
theorem inkOf_piecesFrom_le (fuel : Nat) (acc cs : List Char) :
    inkOf (piecesFrom fuel acc cs) ≤ ink acc + ink cs := by
  induction fuel generalizing acc cs with
  | zero =>
    have none : piecesFrom 0 acc cs = plainPieces acc.reverse := by
      cases cs <;> cases acc <;> simp [piecesFrom, plainPieces]
    rw [none, inkOf_plainPieces, ink_reverse]
    omega
  | succ fuel ih =>
    cases cs with
    | nil => rw [piecesFrom_nil, inkOf_plainPieces, ink_reverse, ink_nil, Nat.add_zero]
    | cons c cs =>
      rw [piecesFrom_succ]
      split
      · rename_i n body after found
        have less := inkOf_tagPieces_lt n body after
        have rest := ih [] after
        rw [← escapedTag?_eq_some found] at less
        simp only [inkOf_append, inkOf_plainPieces, ink_reverse, ink_nil] at rest ⊢
        omega
      · have rest := ih (c :: acc) cs
        rw [ink_cons c acc] at rest
        rw [ink_cons c cs]
        omega

/-- The pieces of a text that holds a tag show less than the text. -/
theorem inkOf_piecesFrom_lt {fuel : Nat} (enough : cs.length ≤ fuel) (acc : List Char)
    (h : HoldsTag cs) : inkOf (piecesFrom fuel acc cs) < ink acc + ink cs := by
  induction cs generalizing fuel acc with
  | nil => exact absurd h not_holdsTag_nil
  | cons c cs ih =>
    obtain ⟨fuel, rfl⟩ := Nat.exists_eq_succ_of_ne_zero (Nat.ne_of_gt (Nat.lt_of_lt_of_le
      (Nat.succ_pos cs.length) enough))
    rw [piecesFrom_succ]
    split
    · rename_i n body after found
      have less := inkOf_tagPieces_lt n body after
      have rest := inkOf_piecesFrom_le fuel [] after
      rw [← escapedTag?_eq_some found] at less
      simp only [inkOf_append, inkOf_plainPieces, ink_reverse, ink_nil] at rest ⊢
      omega
    · rename_i none
      have inside : HoldsTag cs := (holdsTag_cons_iff.1 h).resolve_left (by
        rw [tag?_eq_none none]
        exact Bool.false_ne_true)
      have rest := ih (Nat.le_of_succ_le_succ enough) (c :: acc) inside
      rw [ink_cons c acc] at rest
      rw [ink_cons c cs]
      omega

/-! ## Plain pieces -/

/-- Brackets are freed from backslashes, and nothing else changes. -/
theorem unescaped_sublist (cs : List Char) : (unescaped cs).Sublist cs := by
  fun_induction unescaped cs with
  | case1 cs ih => exact (ih.cons_cons '[').cons '\\'
  | case2 c cs _ ih => exact ih.cons_cons c
  | case3 => exact List.Sublist.refl []

theorem unescaped_of_not_holdsEscape (h : ¬ HoldsEscape cs) : unescaped cs = cs := by
  fun_induction unescaped cs with
  | case1 cs _ => exact absurd (List.prefix_append ['\\', '['] cs).isInfix h
  | case2 c cs _ ih => rw [ih fun inside => h (List.infix_cons inside)]
  | case3 => rfl

theorem ink_unescaped_lt (h : HoldsEscape cs) : ink (unescaped cs) < ink cs := by
  fun_induction unescaped cs with
  | case1 cs _ =>
    have rest := ink_le_of_sublist (unescaped_sublist cs)
    rw [ink_cons, ink_cons '\\', ink_cons '[' cs, show ink ['\\'] = 1 from by decide]
    omega
  | case2 c cs plain ih =>
    have inside : HoldsEscape cs := by
      refine (List.infix_cons_iff.1 h).resolve_left fun front => ?_
      obtain ⟨rest, same⟩ := front
      exact plain rest (List.cons.inj same).1.symm (List.cons.inj same).2.symm
    have rest := ih inside
    rw [ink_cons, ink_cons c cs]
    omega
  | case3 => simp [HoldsEscape] at h

theorem unescaped_of_not_mem (h : '\\' ∉ cs) : unescaped cs = cs :=
  unescaped_of_not_holdsEscape fun inside => h (inside.subset List.mem_cons_self)

variable {fuel : Nat} {p : Progress}

theorem plainOf_plain (p : Progress) (cs : List Char) (rest : List Piece) :
    plainOf p (.plain cs :: rest) = (plainOf p rest).map (unescaped cs ++ ·) := by
  rw [plainOf]
  cases plainOf p rest <;> rfl

theorem plainOf_tag {q : Progress} {body : List Char} (acts : p.apply body = .ok q)
    (rest : List Piece) : plainOf p (.tag body :: rest) = plainOf q rest := by
  rw [plainOf, acts]
  rfl

/-- What is left of some pieces shows no more than the plain ones among them. -/
theorem ink_le_of_plainOf {ps : List Piece} {out : List Char} (done : plainOf p ps = .ok out) :
    ink out ≤ inkOf ps := by
  induction ps generalizing p out with
  | nil =>
    unfold plainOf at done
    cases hp : p.check with
    | error e =>
      rw [hp] at done
      cases done
    | ok _ =>
      rw [hp] at done
      cases done
      exact Nat.le_refl _
  | cons piece ps ih =>
    cases piece with
    | plain cs =>
      rw [plainOf_plain] at done
      cases hps : plainOf p ps with
      | error e =>
        rw [hps] at done
        cases done
      | ok rest =>
        rw [hps] at done
        cases done
        have := ih hps
        have := ink_le_of_sublist (unescaped_sublist cs)
        rw [ink_append, inkOf]
        omega
    | tag body =>
      cases hp : p.apply body with
      | error e =>
        rw [plainOf, hp] at done
        cases done
      | ok q =>
        rw [plainOf_tag hp] at done
        exact ih done

/-! ## What is left of a text -/

theorem plainOf_plainPieces (p : Progress) (cs : List Char) :
    plainOf p (plainPieces cs) = p.check.map fun _ => unescaped cs := by
  have nothing : plainOf p [] = p.check.map fun _ => [] := by
    unfold plainOf
    cases p.check <;> rfl
  cases cs with
  | nil => exact nothing
  | cons c cs =>
    change plainOf p [.plain (c :: cs)] = _
    rw [plainOf_plain, nothing]
    cases p.check with
    | error e => rfl
    | ok _ => exact congrArg Except.ok (List.append_nil _)

/-- A text without tags and escaped brackets is taken as it stands. -/
theorem plainOf_of_plain (enough : cs.length ≤ fuel) (noTag : ¬ HoldsTag cs)
    (noEscape : ¬ HoldsEscape cs) (checked : p.check = .ok ()) :
    plainOf p (piecesFrom fuel [] cs) = .ok cs := by
  rw [piecesFrom_of_not_holdsTag enough [] noTag, List.reverse_nil, List.nil_append,
    plainOf_plainPieces, checked, unescaped_of_not_holdsEscape noEscape]
  rfl

/-- Of a text with a tag or an escaped bracket less is left to be seen. -/
theorem ink_lt_of_plainOf (enough : cs.length ≤ fuel) (marked : HoldsTag cs ∨ HoldsEscape cs)
    {out : List Char} (done : plainOf p (piecesFrom fuel [] cs) = .ok out) : ink out < ink cs := by
  by_cases tagged : HoldsTag cs
  · have less := inkOf_piecesFrom_lt enough [] tagged
    have left := ink_le_of_plainOf done
    rw [ink_nil] at less
    omega
  · rw [piecesFrom_of_not_holdsTag enough [] tagged, List.reverse_nil, List.nil_append,
      plainOf_plainPieces] at done
    cases checked : p.check with
    | error e =>
      rw [checked] at done
      cases done
    | ok _ =>
      rw [checked] at done
      cases done
      exact ink_unescaped_lt (marked.resolve_left tagged)

end Markup

end Pinhole
