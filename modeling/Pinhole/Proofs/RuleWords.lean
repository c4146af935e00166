import Mathlib.Tactic.SplitIfs
import Pinhole.Proofs.Digits
import Pinhole.Rule

/-!
# Words that ask for a change of a rule

The words of a rule and a verb tell both (`Rule.ofWords?`): which of the four kinds of rules it is
shows at the front, the verb stands at one place, and each field has a place of its own. A user or
an interface that looks like an option is read as what stands at its place, so nothing has to be
known about the fields.
-/

namespace Pinhole

/-- A name that stands for a protocol is the name of that protocol. -/
theorem Protocol.name_of_ofName? {s : String} {p : Protocol} (h : ofName? s = some p) :
    p.name = s := by
  simpa using List.find?_some h

namespace Rule

/-! ## Reading words back -/

/-- The verb that a word stands for, where one word adds and another deletes. -/
def verb? (added deleted word : String) : Option Verb :=
  if word = added then some .add else if word = deleted then some .delete else none

/-- The integer that a word is the numeral of. -/
def numeral? (word : String) : Option Int :=
  if toString (spelled word.toList) = word then some (spelled word.toList) else none

/-- The accept rule for a protocol and a port, on the interface that the words after these name. -/
def acceptOf? (protocol port : String) : List String → Option Rule
  | ["-j", "ACCEPT", "-w"] => do
    return .accept (← Protocol.ofName? protocol) (← numeral? port) ""
  | ["-i", interface, "-j", "ACCEPT", "-w"] =>
    if interface.isEmpty then none
    else do return .accept (← Protocol.ofName? protocol) (← numeral? port) interface
  | _ => none

/-- The verb and the rule of some words. -/
def ofWords? : List String → Option (Verb × Rule)
  | ["-t", "nat", verb, "POSTROUTING", "-o", interface, "-j", "MASQUERADE"] => do
    return (← verb? "-A" "-D" verb, .masquerade interface)
  | ["-t", "mangle", verb, "OUTPUT", "-m", "owner", "--uid-owner", user, "-j", "MARK", "--set-mark",
      value] => do
    return (← verb? "-A" "-D" verb, .mark user value)
  | ["rule", verb, "fwmark", value, "table", table] => do
    return (← verb? "add" "delete" verb, .policy .ipv4 value table)
  | ["-6", "rule", verb, "fwmark", value, "table", table] => do
    return (← verb? "add" "delete" verb, .policy .ipv6 value table)
  | verb :: "INPUT" :: "-p" :: protocol :: "--dport" :: port :: rest => do
    return (← verb? "-I" "-D" verb, ← acceptOf? protocol port rest)
  | _ => none

theorem numeral?_toString (n : Int) : numeral? (toString n) = some n := by
  simp only [numeral?, spelled_toString, if_true]

theorem toString_of_numeral? {word : String} {n : Int} (h : numeral? word = some n) :
    toString n = word := by
  unfold numeral? at h
  split_ifs at h with canonical
  exact Option.some.inj h ▸ canonical

theorem eq_of_verb? {added deleted word : String} {verb : Verb}
    (h : verb? added deleted word = some verb) :
    verb = .add ∧ word = added ∨ verb = .delete ∧ word = deleted := by
  unfold verb? at h
  split_ifs at h with hadded hdeleted
  · exact Or.inl ⟨(Option.some.inj h).symm, hadded⟩
  · exact Or.inr ⟨(Option.some.inj h).symm, hdeleted⟩

/-- The words of an accept rule after its protocol and its port. -/
theorem acceptOf?_words (protocol : Protocol) (port : Int) (interface : String) :
    acceptOf? protocol.name (toString port)
      ((if interface.isEmpty then [] else ["-i", interface]) ++ ["-j", "ACCEPT", "-w"]) =
      some (.accept protocol port interface) := by
  have hprotocol := Protocol.ofName?_name protocol
  have hport := numeral?_toString port
  cases hempty : interface.isEmpty with
  | true =>
    obtain rfl : interface = "" := String.isEmpty_iff.1 hempty
    simp only [if_true, List.nil_append, acceptOf?, hprotocol, hport]
    rfl
  | false =>
    simp only [Bool.false_eq_true, if_false, List.cons_append, List.nil_append, acceptOf?, hempty,
      hprotocol, hport]
    rfl

/-- Words that ask for a change of a rule are read as what they are. -/
theorem ofWords?_words (verb : Verb) (r : Rule) : ofWords? (r.words verb) = some (verb, r) := by
  cases r with
  | masquerade interface => cases verb <;> rfl
  | mark user value => cases verb <;> rfl
  | policy version value table => cases verb <;> cases version <;> rfl
  | accept protocol port interface =>
    have rest := acceptOf?_words protocol port interface
    have hverb : verb? "-I" "-D" (chainVerb "-I" verb) = some verb := by cases verb <;> rfl
    have front : ofWords? (words verb (.accept protocol port interface)) = (do
        return (← verb? "-I" "-D" (chainVerb "-I" verb), ← acceptOf? protocol.name (toString port)
          ((if interface.isEmpty then [] else ["-i", interface]) ++ ["-j", "ACCEPT", "-w"]))) := by
      cases verb <;> rfl
    rw [front, hverb, rest]
    rfl

theorem eq_words_of_acceptOf? {protocol port : String} {rest : List String} {r : Rule}
    (h : acceptOf? protocol port rest = some r) (verb : Verb) :
    chainVerb "-I" verb :: "INPUT" :: "-p" :: protocol :: "--dport" :: port :: rest =
      r.words verb := by
  unfold acceptOf? at h
  split at h
  · simp only [Option.bind_eq_bind, Option.bind_eq_some_iff, Option.pure_def,
      Option.some.injEq] at h
    obtain ⟨p, hp, n, hn, rfl⟩ := h
    rw [← Protocol.name_of_ofName? hp, ← toString_of_numeral? hn]
    rfl
  · split_ifs at h with hempty
    simp only [Option.bind_eq_bind, Option.bind_eq_some_iff, Option.pure_def,
      Option.some.injEq] at h
    obtain ⟨p, hp, n, hn, rfl⟩ := h
    rw [← Protocol.name_of_ofName? hp, ← toString_of_numeral? hn, words, if_neg hempty]
    rfl
  · cases h

/-- Only words that ask for a change of a rule are read as such. -/
theorem eq_words_of_ofWords? {ws : List String} {verb : Verb} {r : Rule}
    (h : ofWords? ws = some (verb, r)) : ws = r.words verb := by
  unfold ofWords? at h
  split at h
  all_goals
    simp only [Option.bind_eq_bind, Option.bind_eq_some_iff, Option.pure_def, Option.some.injEq,
      Prod.mk.injEq, reduceCtorEq] at h
  · obtain ⟨verb, hverb, rfl, rfl⟩ := h
    obtain ⟨rfl, rfl⟩ | ⟨rfl, rfl⟩ := eq_of_verb? hverb <;> rfl
  · obtain ⟨verb, hverb, rfl, rfl⟩ := h
    obtain ⟨rfl, rfl⟩ | ⟨rfl, rfl⟩ := eq_of_verb? hverb <;> rfl
  · obtain ⟨verb, hverb, rfl, rfl⟩ := h
    obtain ⟨rfl, rfl⟩ | ⟨rfl, rfl⟩ := eq_of_verb? hverb <;> rfl
  · obtain ⟨verb, hverb, rfl, rfl⟩ := h
    obtain ⟨rfl, rfl⟩ | ⟨rfl, rfl⟩ := eq_of_verb? hverb <;> rfl
  · obtain ⟨verb, hverb, accept, haccept, rfl, rfl⟩ := h
    rw [← eq_words_of_acceptOf? haccept]
    obtain ⟨rfl, rfl⟩ | ⟨rfl, rfl⟩ := eq_of_verb? hverb <;> rfl

/-- Words are read as a verb and a rule exactly when they are the words of these. -/
theorem ofWords?_eq_some_iff {ws : List String} {verb : Verb} {r : Rule} :
    ofWords? ws = some (verb, r) ↔ ws = r.words verb :=
  ⟨eq_words_of_ofWords?, fun h => h ▸ ofWords?_words verb r⟩

/-! ## The place of the verb -/

/-- The word for a verb among the words of a rule. -/
def verbWord (verb : Verb) : Rule → String
  | .accept .. => chainVerb "-I" verb
  | .masquerade _ | .mark .. => chainVerb "-A" verb
  | .policy .. => match verb with | .add => "add" | .delete => "delete"

theorem verbWord_add_ne_delete (r : Rule) : r.verbWord .add ≠ r.verbWord .delete := by
  cases r <;> simp [verbWord, chainVerb]

/-- Around the verb the words of a rule are the same. -/
theorem words_eq_around (r : Rule) :
    ∃ front back, ∀ verb, r.words verb = front ++ r.verbWord verb :: back := by
  cases r with
  | accept protocol port interface => exact ⟨[], _, fun verb => rfl⟩
  | masquerade interface => exact ⟨["-t", "nat"], _, fun verb => rfl⟩
  | mark user value => exact ⟨["-t", "mangle"], _, fun verb => rfl⟩
  | policy version value table =>
    cases version with
    | ipv4 => exact ⟨["rule"], _, fun verb => rfl⟩
    | ipv6 => exact ⟨["-6", "rule"], _, fun verb => rfl⟩

/-! ## Rules and words -/

/-- Let the fields of a rule be whatever they are. The words that add or delete it are read back as
that verb and that rule, and no other words are. What deletes the rule is what adds it but for the
verb. So other rules have other words, for whichever verb: what deletes one rule neither deletes nor
adds another. -/
theorem words_tell_rule (verb : Verb) (r : Rule) :
    (∀ ws, ofWords? ws = some (verb, r) ↔ ws = r.words verb) ∧
      (∃ front back, r.words .add = front ++ r.verbWord .add :: back ∧
        r.words .delete = front ++ r.verbWord .delete :: back ∧
        r.verbWord .add ≠ r.verbWord .delete) ∧
      ∀ verb' r', r'.words verb' = r.words verb → verb' = verb ∧ r' = r := by
  refine ⟨fun ws => ofWords?_eq_some_iff, ?_, fun verb' r' same => ?_⟩
  · obtain ⟨front, back, around⟩ := r.words_eq_around
    exact ⟨front, back, around .add, around .delete, r.verbWord_add_ne_delete⟩
  · have read : some (verb', r') = some (verb, r) := by
      rw [← ofWords?_words verb' r', ← ofWords?_words verb r, same]
    exact Prod.mk.inj (Option.some.inj read)

example : ofWords? ["-D", "INPUT", "-p", "tcp", "--dport", "-5", "-i", "-j", "-j", "ACCEPT", "-w"] =
    some (.delete, .accept .tcp (-5) "-j") := by
  decide +kernel

example : ofWords? ["-D", "INPUT", "-p", "tcp", "--dport", "022", "-j", "ACCEPT", "-w"] = none := by
  decide +kernel

end Rule

end Pinhole
