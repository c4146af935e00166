import Pinhole.Yaml.Lexer

/-!
# What is wrong with the characters of a document

Two things can be wrong with a settings file before anything is known of the settings: its bytes are
no text, or the text is no document. They are told apart, and nothing that reads characters takes
one for the other: a document whose source does not break off for want of a text is cut into tokens
that do not break off for that reason either (`fault_tokens`).

`Textual` passes through the constructions that the lexer is made of, one simp lemma for each; so
each part of the lexer is dealt with by the lemmas about its own parts.
-/

namespace Pinhole.Yaml

variable {α β : Type}

/-- A result whose fault, if there is one, is another than that bytes are no text. -/
def Textual (x : Except Fault α) : Prop := x ≠ .error .undecodable

@[simp] theorem textual_ok (a : α) : Textual (.ok a) := nofun

@[simp] theorem textual_pure (a : α) : Textual (pure a) := textual_ok a

@[simp] theorem textual_error {f : Fault} :
    Textual (.error f : Except Fault α) ↔ f ≠ .undecodable := by
  simp [Textual]

@[simp] theorem textual_malformed (problem : String) :
    Textual (malformed problem : Except Fault α) := by
  simp [malformed]

@[simp] theorem Fault.unclosed_ne : unclosed ≠ .undecodable := nofun

@[simp] theorem textual_bind {x : Except Fault α} {f : α → Except Fault β} :
    Textual (x >>= f) ↔ Textual x ∧ ∀ a, x = .ok a → Textual (f a) := by
  cases x with
  | ok a => simp [Textual, bind, Except.bind]
  | error e => simp [Textual, bind, Except.bind]

@[simp] theorem textual_map {x : Except Fault α} {f : α → β} :
    Textual (x.map f) ↔ Textual x := by
  cases x <;> simp [Except.map]

@[simp] theorem textual_functor_map {x : Except Fault α} {f : α → β} :
    Textual (f <$> x) ↔ Textual x := textual_map

@[simp] theorem textual_ite {p : Prop} [Decidable p] {x y : Except Fault α} :
    Textual (if p then x else y) ↔ (p → Textual x) ∧ (¬ p → Textual y) := by
  split <;> simp [*]

/-! ## Scalars -/

@[simp] theorem Cursor.textual_endOfLine (c : Cursor) (problem : String) :
    Textual (c.endOfLine problem) := by
  simp [endOfLine]

@[simp] theorem textual_numericEscape (width : Nat) (c : Cursor) :
    Textual (numericEscape width c) := by
  unfold numericEscape
  simp only [textual_ite, textual_malformed, implies_true, true_and]
  intro _
  split <;> simp

@[simp] theorem textual_quotedBreaks (fuel : Nat) (acc : List Char) (c : Cursor) :
    Textual (quotedBreaks fuel acc c) := by
  induction fuel generalizing acc c with
  | zero => simp [quotedBreaks]
  | succ fuel ih => simp [quotedBreaks, ih]

@[simp] theorem textual_quotedBlanks (c : Cursor) : Textual (quotedBlanks c) := by
  simp [quotedBlanks]

@[simp] theorem textual_quotedEscape (c : Cursor) : Textual (quotedEscape c) := by
  unfold quotedEscape
  split <;> simp

@[simp] theorem textual_quotedText (double : Bool) (fuel : Nat) (acc : List Nat) (c : Cursor) :
    Textual (quotedText double fuel acc c) := by
  induction fuel generalizing acc c with
  | zero => simp [quotedText]
  | succ fuel ih => simp [quotedText, ih]

@[simp] theorem textual_quotedRest (double : Bool) (fuel : Nat) (acc : List Nat) (c : Cursor) :
    Textual (quotedRest double fuel acc c) := by
  induction fuel generalizing acc c with
  | zero => simp [quotedRest]
  | succ fuel ih => simp [quotedRest, ih]

@[simp] theorem textual_quotedScalar (double : Bool) (c : Cursor) :
    Textual (quotedScalar double c) := by
  simp [quotedScalar]

@[simp] theorem textual_indentation (c : Cursor) : Textual (indentation c) := by
  simp [indentation]

@[simp] theorem textual_blockHeader (c : Cursor) : Textual (blockHeader c) := by
  unfold blockHeader
  cases chomping? c.peek with
  | some chomping => simp
  | none =>
    refine textual_bind.2 ⟨textual_indentation c, ?_⟩
    rintro ⟨increment, c⟩ -
    dsimp only
    split <;> simp

@[simp] theorem textual_blockScalar (fold : Bool) (outer : Nat) (c : Cursor) :
    Textual (blockScalar fold outer c) := by
  simp [blockScalar]

namespace Lexer

/-! ## Directives, anchors and tags -/

@[simp] theorem textual_word (c : Cursor) (problem : String) : Textual (word c problem) := by
  simp [word]

@[simp] theorem textual_number (c : Cursor) : Textual (number c) := by
  simp [number]

@[simp] theorem textual_uriBytes (fuel : Nat) (acc : List UInt8) (c : Cursor) :
    Textual (uriBytes fuel acc c) := by
  induction fuel generalizing acc c with
  | zero => simp [uriBytes]
  | succ fuel ih =>
    simp only [uriBytes, textual_ite, textual_ok, implies_true, and_true]
    intro _
    split <;> simp [ih]

@[simp] theorem textual_uriRest (fuel : Nat) (acc : List Char) (c : Cursor) :
    Textual (uriRest fuel acc c) := by
  induction fuel generalizing acc c with
  | zero => simp [uriRest]
  | succ fuel ih =>
    simp only [uriRest, textual_ite, textual_bind, textual_uriBytes, true_and, textual_ok,
      implies_true, and_true]
    rintro - ⟨bytes, d⟩ -
    dsimp only
    split <;> simp [ih]

@[simp] theorem textual_uri (c : Cursor) : Textual (uri c) := by
  simp [uri]

@[simp] theorem textual_tagHandle (c : Cursor) : Textual (tagHandle c) := by
  simp [tagHandle]

@[simp] theorem textual_directive (c : Cursor) : Textual (directive c) := by
  simp [directive]

@[simp] theorem textual_anchorName (c : Cursor) : Textual (anchorName c) := by
  simp [anchorName]

@[simp] theorem textual_tag (c : Cursor) : Textual (tag c) := by
  simp [tag]

/-! ## Tokens -/

@[simp] theorem textual_dropKey (l : Lexer) : Textual l.dropKey := by
  unfold dropKey
  cases l.keyPlace? <;> simp

@[simp] theorem textual_saveKey (l : Lexer) : Textual l.saveKey := by
  simp [saveKey]

@[simp] theorem textual_dropStale (l : Lexer) : Textual l.dropStale := by
  simp [dropStale]

@[simp] theorem textual_documentToken (l : Lexer) : Textual l.documentToken := by
  simp [documentToken]

@[simp] theorem textual_openBracket (l : Lexer) (t : Token) : Textual (l.openBracket t) := by
  simp [openBracket]

@[simp] theorem textual_closeBracket (l : Lexer) (t : Token) : Textual (l.closeBracket t) := by
  simp [closeBracket]

@[simp] theorem textual_blockMark (l : Lexer) (opening mark : Token) (keyAllowed : Bool)
    (problem : String) : Textual (l.blockMark opening mark keyAllowed problem) := by
  simp [blockMark]

@[simp] theorem textual_valueMark (l : Lexer) : Textual l.valueMark := by
  unfold valueMark
  cases l.keyPlace? <;> simp

theorem textual_content {l : Lexer} {read : Cursor → Except Fault (Token × Cursor)}
    (h : ∀ c, Textual (read c)) : Textual (l.content read) := by
  simp [content, h]

@[simp] theorem textual_blockContent (l : Lexer) (fold : Bool) : Textual (l.blockContent fold) := by
  simp [blockContent]

@[simp] theorem textual_plainContent (l : Lexer) : Textual l.plainContent := by
  simp [plainContent]

/-- Whatever the next token is, no part of the lexer finds that bytes are no text. -/
theorem textual_step (l : Lexer) : Textual l.step := by
  simp [step, textual_content]

/-- In a document that breaks off for another reason that reason is met, or another one is. -/
theorem textual_stepTo {fault : Option Fault} (other : fault ≠ some .undecodable) (l : Lexer) :
    Textual (l.stepTo fault) := by
  cases fault with
  | none => exact l.textual_step
  | some f =>
    have hf : f ≠ .undecodable := fun e => other (congrArg some e)
    unfold stepTo
    simp only [textual_ite]
    refine ⟨fun _ => by simpa using hf, fun _ => ?_⟩
    have hstep := l.textual_step
    cases h : l.step with
    | ok next => simp [hf]
    | error e =>
      rw [h, textual_error] at hstep
      simp only [textual_error]
      -- A scalar that the characters ran out in gives the reason why they did.
      split
      · exact hf
      · exact hstep

/-- Nor is it met further on, however many tokens there are. -/
theorem fault_toEnd {fault : Option Fault} (other : fault ≠ some .undecodable) (fuel : Nat)
    (l : Lexer) : (toEnd fuel fault l).fault ≠ some .undecodable := by
  induction fuel generalizing l with
  | zero => exact nofun
  | succ fuel ih =>
    have hstep := textual_stepTo other l
    unfold toEnd
    cases h : l.stepTo fault with
    | error f =>
      rw [h, textual_error] at hstep
      simpa using hstep
    | ok next =>
      dsimp only
      split
      · exact nofun
      · exact ih next

end Lexer

/-- The tokens of a document break off for want of a text only if its source does. -/
theorem fault_tokens {s : Source} (other : s.fault ≠ some .undecodable) :
    (tokens s).fault ≠ some .undecodable :=
  Lexer.fault_toEnd other _ _

end Pinhole.Yaml
