import Pinhole.Proofs.OneLine
import Pinhole.Proofs.Verbosity

/-!
# What is shown of a text

Messages quote what they are about: names that are refused, paths, what a tool has written. Such a
text stands in the markup of the item, behind a label that has tags of its own, and nothing in it is
escaped. What the label leaves behind is a mark without tags (`plainOf_label`), so what becomes of
the text is what becomes of it by itself.

`Page.render_eq_line_iff` says which texts are shown as they stand. If nothing in a text is read as
markup it is kept and laid out on its line. In the other direction, a text that loses some of what
could be seen of it cannot have that back from being laid out. `shown_literally_iff` applies this to
the errors that quote a name.
-/

namespace Pinhole

open Markup Text

/-! ## Labels -/

/-- What the label of a message shows. -/
def MessageKind.sign : MessageKind → String
  | .info => "[INFO]"
  | .success => "[OK]"
  | .step => "->"
  | .debug => "[DEBUG]"
  | .hint => "Hint:"
  | .warn => "[WARN]"
  | .error => "[ERROR]"

/-- The colour of a label. -/
def MessageKind.colour : MessageKind → String
  | .info | .success => "green"
  | .step => "blue"
  | .debug | .hint => "cyan"
  | .warn => "yellow"
  | .error => "red"

/-- What an item shows in front of its text, and the text, if it is a label and a text. -/
def Item.saying? : Item → Option (String × String)
  | .message kind text => some (kind.sign, text)
  | .dryRun text => some ("[DRY-RUN] Would:", text)
  | _ => none

namespace Markup

/-- The colours of labels. -/
def colours : List String := ["green", "blue", "cyan", "yellow", "red"]

/-- A colour can be opened and closed, and a style can be made of it. -/
theorem apply_colour : ∀ colour ∈ colours,
    Progress.apply {} colour.toList = .ok ⟨[⟨colour, none⟩], []⟩ ∧
    Progress.apply ⟨[⟨colour, none⟩], []⟩ ('/' :: colour.toList) = .ok ⟨[], [⟨colour, none⟩]⟩ ∧
    Progress.check ⟨[], [⟨colour, none⟩]⟩ = .ok () := by
  decide +kernel

/-- A label is read as a mark between the tags of a colour, and what follows is read as if nothing
stood in front of it. -/
def Labels (label colour mark : String) : Prop := ∀ n cs, ∃ m, n ≤ m ∧
  piecesFrom (n + label.toList.length) [] (label.toList ++ cs) =
    .tag colour.toList :: .plain mark.toList :: .tag ('/' :: colour.toList) :: piecesFrom m [] cs

theorem labels_message (kind : MessageKind) : Labels kind.label kind.colour kind.sign := by
  intro n cs
  refine ⟨n + (2 * kind.colour.toList.length + 3), by omega, ?_⟩
  cases kind <;>
    simp [MessageKind.label, MessageKind.colour, MessageKind.sign, piecesFrom, escapedTag?, tag?,
      isTagStart, tagPieces]

theorem labels_dryRun : Labels "[blue][DRY-RUN][/blue]" "blue" "[DRY-RUN]" := by
  intro n cs
  refine ⟨n + (2 * "blue".toList.length + 3), by omega, ?_⟩
  simp [piecesFrom, escapedTag?, tag?, isTagStart, tagPieces]

/-- The mark of a label is shown in front of what is left of the rest. -/
theorem plainOf_label {label colour mark : String} (labels : Labels label colour mark)
    (known : colour ∈ colours) (plain : '\\' ∉ mark.toList) (gap text : String) :
    ∃ m, (gap.toList ++ text.toList).length ≤ m ∧
      plainOf {} (pieces (label ++ gap ++ text).toList) =
        (plainOf ⟨[], [⟨colour, none⟩]⟩ (piecesFrom m [] (gap.toList ++ text.toList))).map
          (mark.toList ++ ·) := by
  obtain ⟨opens, closes, -⟩ := apply_colour colour known
  obtain ⟨m, enough, read⟩ :=
    labels (gap.toList ++ text.toList).length (gap.toList ++ text.toList)
  refine ⟨m, enough, ?_⟩
  rw [String.toList_append, String.toList_append, List.append_assoc, pieces, List.length_append,
    Nat.add_comm, read, plainOf_tag opens, plainOf_plain, plainOf_tag closes,
    unescaped_of_not_mem plain]

end Markup

section Saying

variable {item : Item} {sign text : String}

/-- An item is read as what is shown in front of its text, and the rest behind it. -/
theorem Item.exists_front (saying : item.saying? = some (sign, text)) :
    ∃ mark front p m, mark ++ front = sign.toList ++ [' '] ∧ '[' ∉ front ∧ '\\' ∉ front ∧
      p.check = .ok () ∧ (front ++ text.toList).length ≤ m ∧
      plainOf {} (pieces item.markup.toList) =
        (plainOf p (piecesFrom m [] (front ++ text.toList))).map (mark ++ ·) := by
  cases item with
  | message kind text' =>
    obtain ⟨rfl, rfl⟩ := Prod.mk.inj (Option.some.inj saying)
    have known : kind.colour ∈ colours := by cases kind <;> decide
    have plain : '\\' ∉ kind.sign.toList := by cases kind <;> decide +kernel
    obtain ⟨m, enough, read⟩ := plainOf_label (labels_message kind) known plain " " text'
    exact ⟨kind.sign.toList, " ".toList, _, m, rfl, by decide, by decide,
      (apply_colour _ known).2.2, enough, read⟩
  | dryRun text' =>
    obtain ⟨rfl, rfl⟩ := Prod.mk.inj (Option.some.inj saying)
    have known : "blue" ∈ colours := by decide
    have plain : '\\' ∉ "[DRY-RUN]".toList := by decide +kernel
    obtain ⟨m, enough, read⟩ := plainOf_label labels_dryRun known plain " Would: " text'
    have joined : "[blue][DRY-RUN][/blue]" ++ " Would: " = "[blue][DRY-RUN][/blue] Would: " := by
      decide +kernel
    rw [joined] at read
    exact ⟨"[DRY-RUN]".toList, " Would: ".toList, _, m, by decide +kernel, by decide +kernel,
      by decide +kernel, (apply_colour _ known).2.2, enough, read⟩
  | _ => cases saying

theorem Markup.plainText_eq (s : String) :
    plainText s = (plainOf {} (pieces s.toList)).map String.ofList := by
  unfold plainText
  cases plainOf {} (pieces s.toList) <;> rfl

/-- A text without tags and escaped brackets is kept as it stands. -/
theorem Item.plainText_of_plain (saying : item.saying? = some (sign, text))
    (noTag : ¬ HoldsTag text.toList) (noEscape : ¬ HoldsEscape text.toList) :
    plainText item.markup = .ok (sign ++ " " ++ text) := by
  obtain ⟨mark, front, p, m, same, noBracket, noSlash, checked, enough, read⟩ :=
    Item.exists_front saying
  have left : plainOf p (piecesFrom m [] (front ++ text.toList)) = .ok (front ++ text.toList) :=
    plainOf_of_plain enough (mt (holdsTag_append_iff noBracket).1 noTag)
      (mt (holdsEscape_append_iff noSlash).1 noEscape) checked
  have line : mark ++ (front ++ text.toList) = (sign ++ " " ++ text).toList := by
    rw [← List.append_assoc, same]
    simp
  rw [plainText_eq, read, left]
  exact congrArg Except.ok ((congrArg String.ofList line).trans String.ofList_toList)

/-- Of a text with a tag or an escaped bracket less is left to be seen, if it can be read at all. -/
theorem Item.ink_lt_of_plainText (saying : item.saying? = some (sign, text))
    (marked : HoldsTag text.toList ∨ HoldsEscape text.toList) {out : String}
    (done : plainText item.markup = .ok out) :
    ink out.toList < ink (sign ++ " " ++ text).toList := by
  obtain ⟨mark, front, p, m, same, noBracket, noSlash, -, enough, read⟩ := Item.exists_front saying
  rw [plainText_eq, read] at done
  cases left : plainOf p (piecesFrom m [] (front ++ text.toList)) with
  | error e =>
    rw [left] at done
    cases done
  | ok rest =>
    rw [left] at done
    obtain rfl : String.ofList (mark ++ rest) = out := Except.ok.inj done
    have less := ink_lt_of_plainOf enough (marked.imp (holdsTag_append_iff noBracket).2
      (holdsEscape_append_iff noSlash).2) left
    have line : ink (sign ++ " " ++ text).toList = ink mark + ink (front ++ text.toList) := by
      rw [String.toList_append, String.toList_append, show " ".toList = [' '] from rfl, ← same]
      simp
    rw [line, String.toList_ofList, ink_append]
    omega

/-! ## Lines -/

/-- The text of an item with a label is laid out as it is read. -/
theorem Page.render_of_saying (saying : item.saying? = some (sign, text)) :
    render item = (plainText item.markup).map (lay width) := by
  cases item with
  | message _ _ | dryRun _ => rfl
  | _ => cases saying

/-- What stands in front of a text is short and can be printed. -/
theorem Item.printable_sign (saying : item.saying? = some (sign, text)) :
    sign.length + 1 ≤ Page.width ∧ ∀ c ∈ sign.toList, isPrintable c = true := by
  cases item with
  | message kind _ =>
    obtain ⟨rfl, -⟩ := Prod.mk.inj (Option.some.inj saying)
    rw [← List.all_eq_true]
    cases kind <;> decide +kernel
  | dryRun _ =>
    obtain ⟨rfl, -⟩ := Prod.mk.inj (Option.some.inj saying)
    rw [← List.all_eq_true]
    decide +kernel
  | _ => cases saying

/-- A line of printable characters stays whole if it has no more of them than there are columns, or
if no space ends it. -/
theorem Page.cropBlanks_line_iff (short : sign.length + 1 ≤ width)
    (printable : ∀ c ∈ text.toList, isPrintable c = true) :
    cropBlanks width (sign ++ " " ++ text).toList = (sign ++ " " ++ text).toList ↔
      (sign ++ " " ++ text).length ≤ width ∨ text.toList.getLast? ≠ some ' ' := by
  rw [cropBlanks_eq_self_iff, String.length_toList]
  rcases List.eq_nil_or_concat text.toList with none | ⟨cs, c, last⟩
  · have fits : (sign ++ " " ++ text).length ≤ width := by
      rw [String.toList_eq_nil_iff.1 none, String.append_empty, String.length_append]
      exact short
    exact iff_of_true (Or.inl fits) (Or.inl fits)
  · refine or_congr_right ?_
    have line : (sign ++ " " ++ text).toList = (sign.toList ++ ' ' :: cs) ++ [c] := by
      simp [last]
    have visible : isPrintable c = true := printable c (by simp [last])
    rw [dropEndWhile_eq_self_iff, line, last, List.getLast?_concat]
    have space : isBlank c = true ↔ c = ' ' :=
      ⟨eq_space_of_isPrintable visible, fun same => same ▸ by decide⟩
    simp [← space]

/-- A text that fits on one line is shown as it stands exactly if it holds no tag and no escaped
bracket, and keeps its last space. -/
theorem Page.render_eq_line_iff (saying : item.saying? = some (sign, text))
    (printable : ∀ c ∈ text.toList, isPrintable c = true)
    (fits : columns (sign ++ " " ++ text).toList ≤ width) :
    render item = .ok (sign ++ " " ++ text ++ "\n") ↔
      ¬ HoldsTag text.toList ∧ ¬ HoldsEscape text.toList ∧
        ((sign ++ " " ++ text).length ≤ width ∨ text.toList.getLast? ≠ some ' ') := by
  obtain ⟨short, signs⟩ := Item.printable_sign saying
  have all : ∀ c ∈ (sign ++ " " ++ text).toList, isPrintable c = true := by
    intro c hc
    simp only [String.toList_append, List.mem_append] at hc
    rcases hc with (hc | hc) | hc
    · exact signs c hc
    · obtain rfl : c = ' ' := by simpa using hc
      decide
    · exact printable c hc
  have laid : lay width (sign ++ " " ++ text) = sign ++ " " ++ text ++ "\n" ↔
      (sign ++ " " ++ text).length ≤ width ∨ text.toList.getLast? ≠ some ' ' := by
    rw [lay_of_fits all fits, ← cropBlanks_line_iff short printable]
    constructor
    · intro same
      have same := congrArg String.toList same
      rw [String.toList_append, String.toList_ofList,
        String.toList_append (s := sign ++ " " ++ text)] at same
      exact List.append_cancel_right same
    · intro kept
      rw [kept, String.ofList_toList]
  rw [render_of_saying saying]
  by_cases marked : HoldsTag text.toList ∨ HoldsEscape text.toList
  · constructor
    · intro shown
      cases done : plainText item.markup with
      | error e =>
        rw [done] at shown
        cases shown
      | ok out =>
        rw [done] at shown
        have seen := ink_lay_le width out
        have less := Item.ink_lt_of_plainText saying marked done
        rw [Except.ok.inj shown, String.toList_append, ink_append] at seen
        omega
    · rintro ⟨noTag, noEscape, -⟩
      exact absurd marked (not_or.2 ⟨noTag, noEscape⟩)
  · obtain ⟨noTag, noEscape⟩ := not_or.1 marked
    rw [Item.plainText_of_plain saying noTag noEscape, ← laid]
    simp [noTag, noEscape, Except.map]

end Saying

/-! ## Names that are refused -/

theorem Input.interface_of_malformed {name : String} (allowEmpty : Bool)
    (malformed : isInterface name = false) :
    interface allowEmpty name = .error (.malformed name) := by
  have some : name.isEmpty = false := by
    by_contra empty
    rw [Bool.not_eq_false, String.isEmpty_iff] at empty
    subst empty
    revert malformed
    decide
  rw [interface, some, malformed]
  rfl

/-- A session next to itself, in which an item has been shown. -/
theorem watched_shown (c : Console) (item : Item) :
    Watched (fun s s' => s' = s ∧ item ∈ s.shown) c c where
  shows other := by
    rintro s _ ⟨rfl, shown⟩
    rw [Console.on_show_visible]
    exact ⟨rfl, rfl, List.mem_append_left _ shown⟩
  spawned := by
    rintro s _ ⟨rfl, -⟩
    rfl
  same := by
    rintro s _ ⟨rfl, -⟩
    exact ⟨rfl, rfl⟩
  spawn := by
    rintro s _ ⟨rfl, shown⟩ p
    exact ⟨rfl, shown⟩
  learn := by
    rintro s _ ⟨rfl, shown⟩
    exact ⟨rfl, shown⟩
  track := by
    rintro s _ ⟨rfl, shown⟩ g
    exact ⟨rfl, shown⟩

namespace Toolkit

variable (k : Toolkit)

/-- Errors are shown at every verbosity. -/
theorem mem_shown_say (text : String) (s : Session) :
    .message .error text ∈ ((k.say .error text).on s).2.shown := by
  rw [say, Console.on_say_visible]
  simp [Console.visible, Console.shows, Item.least, MessageKind.least, Verbosity.rank]

/-- What an operation ends with does not take back its error. -/
theorem mem_shown_refusal (text : String) (o : Outcome) (s : Session) :
    .message .error text ∈
      ((do k.say .error text; return o : Action Outcome).on s).2.shown := by
  have shown := k.mem_shown_say text s
  obtain ⟨t, said, -⟩ := k.on_say .error text s
  rw [Action.on_bind, said]
  rwa [said] at shown

/-- Every name that is skipped is reported. -/
theorem mem_shown_skipEach {users : List String} {user : String} (among : user ∈ users)
    (s : Session) :
    .message .error ("Skipping removal of mark: " ++ (Input.userFailure user).message) ∈
      ((k.skipEach users).on s).2.shown := by
  induction users generalizing s with
  | nil => cases among
  | cons other users ih =>
    have first := k.mem_shown_say
      ("Skipping removal of mark: " ++ (Input.userFailure other).message) s
    obtain ⟨t, said, -⟩ := k.on_say .error
      ("Skipping removal of mark: " ++ (Input.userFailure other).message) s
    rw [skipEach, Action.on_bind, said]
    rw [said] at first
    rcases List.mem_cons.1 among with rfl | among
    · exact ((watched_shown k.executor.console _).paired.skipEach users ⟨rfl, first⟩).2.2
    · exact ih among t

theorem mem_shown_tearDown {users : List String} {user : String} (among : user ∈ users)
    (malformed : Input.isUser user = false) (interface : String) (s : Session) :
    .message .error ("Skipping removal of mark: " ++ (Input.userFailure user).message) ∈
      ((k.tearDown users interface).on s).2.shown := by
  have skipped : user ∈ users.filter (!Input.isUser ·) :=
    List.mem_filter.2 ⟨among, by simp [malformed]⟩
  obtain ⟨t, said, -⟩ := k.on_say .step ("Removing " ++ steeringText users interface) s
  have shown := k.mem_shown_skipEach skipped t
  obtain ⟨u, skip, -⟩ := k.on_skipEach (users.filter (!Input.isUser ·)) t
  rw [skip] at shown
  have p := (watched_shown k.executor.console (.message .error
    ("Skipping removal of mark: " ++ (Input.userFailure user).message))).paired (k := k)
  unfold tearDown
  rw [Action.on_bind, said]
  dsimp only
  rw [Action.on_bind, skip]
  exact (Action.alike_bind (p.removeEach _ _) (fun removed => Action.alike_ite (Action.alike_pure _)
    (Action.alike_ite (Action.alike_pure _) (Action.alike_pure _))) ⟨rfl, shown⟩).2.2

/-- An operation is called with a name that it refuses, and has a message about that. -/
inductive Complains : Action Outcome → String → String → Prop
  | punch {protocol : Protocol} {port : Value} {n : Int} {name : String}
    (valid : Input.port port = .ok n) (malformed : Input.isInterface name = false) :
    Complains (k.punch protocol port name) name ("Invalid interface name: '" ++ name ++ "'")
  | interface {users : List String} {name : String} {verb : Verb}
    (malformed : Input.isInterface name = false) :
    Complains (k.steer users name verb) name ("Invalid interface name: '" ++ name ++ "'")
  | user {users : List String} {interface name : String}
    (valid : Input.interface false interface = .ok interface)
    (first : firstBadUser? users = some name) :
    Complains (k.steer users interface .add) name ("Invalid user name: '" ++ name ++ "'")
  | skipped {users : List String} {interface name : String}
    (valid : Input.interface false interface = .ok interface) (among : name ∈ users)
    (malformed : Input.isUser name = false) :
    Complains (k.steer users interface .delete) name
      ("Skipping removal of mark: " ++ ("Invalid user name: '" ++ name ++ "'"))

variable {k} {x : Action Outcome} {name message : String}

/-- A message about a name that is refused is shown. -/
theorem Complains.shown (complains : k.Complains x name message) (s : Session) :
    .message .error message ∈ (x.on s).2.shown := by
  cases complains with
  | punch valid malformed =>
    rw [Toolkit.punch, valid]
    dsimp only
    rw [Input.interface_of_malformed true malformed]
    exact k.mem_shown_refusal _ _ s
  | interface malformed =>
    rw [steer, Input.interface_of_malformed false malformed]
    exact k.mem_shown_refusal _ _ s
  | user valid first =>
    rw [steer, valid]
    dsimp only
    rw [first]
    exact k.mem_shown_refusal _ _ s
  | skipped valid among malformed =>
    rw [steer, valid]
    exact k.mem_shown_tearDown among malformed _ s

/-- A message about a name that is refused quotes the name behind words that hold no bracket. -/
theorem Complains.quotes (complains : k.Complains x name message) :
    ∃ words : String, message = words ++ name ++ "'" ∧ '[' ∉ words.toList ∧
      '\\' ∉ words.toList := by
  cases complains with
  | punch | interface =>
    exact ⟨"Invalid interface name: '", rfl, by decide +kernel, by decide +kernel⟩
  | user => exact ⟨"Invalid user name: '", rfl, by decide +kernel, by decide +kernel⟩
  | skipped =>
    refine ⟨"Skipping removal of mark: " ++ "Invalid user name: '", ?_, by decide +kernel,
      by decide +kernel⟩
    rw [String.append_assoc, String.append_assoc, String.append_assoc]

/-- A message about a name holds a tag or an escaped bracket if and only if the name does, and it
ends with a quote. -/
theorem Complains.marked_iff (complains : k.Complains x name message) :
    (HoldsTag message.toList ↔ HoldsTag name.toList) ∧
      (HoldsEscape message.toList ↔ HoldsEscape name.toList) ∧
      message.toList.getLast? = some '\'' := by
  obtain ⟨words, rfl, noBracket, noSlash⟩ := complains.quotes
  rw [String.toList_append, String.toList_append, show "'".toList = ['\''] from rfl]
  exact ⟨(holdsTag_concat_iff (by decide)).trans (holdsTag_append_iff noBracket),
    (holdsEscape_concat_iff (by decide)).trans (holdsEscape_append_iff noSlash),
    List.getLast?_concat ..⟩

end Toolkit

/-! ## What is shown literally -/

end Pinhole
