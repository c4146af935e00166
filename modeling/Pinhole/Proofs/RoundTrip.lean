import Pinhole.Config.Load
import Pinhole.Proofs.Settings
import Pinhole.Proofs.Stored

/-!
# Settings that are written and loaded

Settings that have passed their checks are written as a text, and when that text is stored in a file
and loaded from there, they are the same settings again (`Machine.load_text`). Every setting comes
back: what its check lets through, its writer writes such that the reader finds it and the check lets
it through unchanged (`setting_written`).
-/

namespace Pinhole.Config

/-! ## Settings that have passed their checks -/

/-- Settings of the packet filters that have passed their checks. -/
structure Firewall.Sound (f : Firewall) : Prop where
  mark : Text.isDigitMarks f.userTrafficMark = true
  table : Text.isDigitMarks f.userTrafficTable = true
  timeout : ∀ n, f.commandTimeout = some n → 0 < n

/-- Settings of the audit trail that have passed their checks. -/
structure Audit.Sound (a : Audit) : Prop where
  logPath : a.logPath.Plain

section Checks

variable {α : Type} {entries : List (Value × Value)} {check : Check α} {standard : α}

/-- A setting is its default, or it has passed its check. -/
theorem setting_induction {P : α → Prop} (part name : String) (default : P standard)
    (passes : ∀ v a, check v = .ok a → P a) : P (setting part entries name check standard).2 := by
  rw [setting]
  split
  · exact default
  · split
    · exact passes _ _ ‹_›
    · exact default

/-- A section is made of the entries of some mapping, if only of none. -/
theorem sectionOf_induction {P : α → Prop} (name part : String)
    {check : List (Value × Value) → Checked α} (made : ∀ es, P (check es).2) :
    P (sectionOf entries name part check).2 := by
  rw [sectionOf]
  split <;> exact made _

theorem numeralCheck_sound {v : Value} {s : String} (h : numeralCheck v = .ok s) :
    Text.isDigitMarks s = true := by
  rw [numeralCheck] at h
  cases hs : textCheck v with
  | error e => simp [hs, bind, Except.bind] at h
  | ok a =>
    simp only [hs, bind, Except.bind] at h
    split_ifs at h with marks
    cases h
    exact marks

theorem timeoutCheck_sound {v : Value} {o : Option Int} (h : timeoutCheck v = .ok o) {n : Int}
    (given : o = some n) : 0 < n := by
  subst given
  rw [timeoutCheck] at h
  cases hn : optional intCheck v with
  | error e => simp [hn, bind, Except.bind] at h
  | ok a =>
    cases a with
    | none => simp [hn, bind, Except.bind] at h
    | some m =>
      simp only [hn, bind, Except.bind] at h
      split_ifs at h with positive
      cases h
      exact positive

theorem pathCheck_sound {v : Value} {p : Path} (h : pathCheck v = .ok p) : p.Plain := by
  rw [pathCheck] at h
  split at h <;> cases h
  exact Path.plain_ofText _

theorem sound_firewallSection (es : List (Value × Value)) : (firewallSection es).2.Sound where
  mark := setting_induction (P := fun s => Text.isDigitMarks s = true) "firewall" "user_traffic_mark"
    (by decide +kernel) fun _ _ => numeralCheck_sound
  table := setting_induction (P := fun s => Text.isDigitMarks s = true) "firewall"
    "user_traffic_table" (by decide +kernel) fun _ _ => numeralCheck_sound
  timeout := setting_induction (P := fun o => ∀ n, o = some n → 0 < n) "firewall" "command_timeout"
    nofun fun _ _ h _ => timeoutCheck_sound h

theorem sound_auditSection (es : List (Value × Value)) : (auditSection es).2.Sound where
  logPath := setting_induction "audit" "log_path" (Path.plain_ofText _) fun _ _ => pathCheck_sound

/-- Settings that are accepted have passed their checks. -/
theorem sound_of_ofEntries {m : Machine} (accepted : Machine.ofEntries entries = .ok m) :
    m.firewall.Sound ∧ m.audit.Sound := by
  have parts : m =
      { firewall := (sectionOf entries "firewall" "FirewallConfig" firewallSection).2
        audit := (sectionOf entries "audit" "AuditConfig" auditSection).2 } := by
    rw [Machine.ofEntries] at accepted
    dsimp only at accepted
    split_ifs at accepted
    exact (Except.ok.inj accepted).symm
  rw [parts]
  exact ⟨sectionOf_induction _ _ sound_firewallSection, sectionOf_induction _ _ sound_auditSection⟩

end Checks

/-! ## Written settings -/

/-- The names of sections and settings. -/
def settingNames : List String :=
  ["firewall", "audit"] ++ ({} : Firewall).written.map Prod.fst ++ ({} : Audit).written.map Prod.fst

theorem isSettingName_of_mem {s : String} (h : s ∈ settingNames) : IsSettingName s := by
  have chars : ∀ s ∈ settingNames, s.toList.all isNameChar = true := by decide +kernel
  have begins : ∀ s ∈ settingNames, s.toList.head?.any Char.isLower = true := by decide +kernel
  have short : ∀ s ∈ settingNames, s.toList.length ≤ Yaml.Lexer.maxKeyLength := by decide +kernel
  have isText : ∀ s ∈ settingNames, Yaml.Tag.resolve s = .str := by decide +kernel
  refine ⟨List.all_eq_true.1 (chars s h), ?_, short s h, isText s h⟩
  have front := begins s h
  cases hs : s.toList with
  | nil => simp [hs] at front
  | cons c rest => exact ⟨c, rest, rfl, by simpa [hs] using front⟩

theorem ofText?_ne_number (o : Option String) (n : Int) : Written.ofText? o ≠ .number n := by
  cases o <;> nofun

/-- The settings of the packet filters can be read back. -/
theorem Firewall.legible {f : Firewall} (sound : f.Sound)
    (short : ∀ n, f.commandTimeout = some n → n.natAbs < writtenBound) : Legible f.written := by
  have names : f.written.map Prod.fst = ({} : Firewall).written.map Prod.fst := rfl
  refine ⟨by simp [written], fun x mem => ?_, ?_, fun x mem n hn => ?_⟩
  · have mem : x.1 ∈ f.written.map Prod.fst := List.mem_map_of_mem mem
    rw [names] at mem
    exact isSettingName_of_mem (List.mem_append_left _ (List.mem_append_right _ mem))
  · rw [names]
    decide +kernel
  · simp only [written, List.mem_cons, List.not_mem_nil, or_false] at mem
    rcases mem with rfl | rfl | rfl | rfl | rfl | rfl | rfl | rfl | rfl
    case inr.inr.inr.inr.inr.inr.inr.inr =>
      cases given : f.commandTimeout with
      | none =>
        rw [given] at hn
        cases hn
      | some m =>
        rw [given] at hn
        cases hn
        exact ⟨sound.timeout n given, short n given⟩
    all_goals first | cases hn | exact absurd hn (ofText?_ne_number _ _)

/-- The settings of the audit trail can be read back. -/
theorem Audit.legible (a : Audit) : Legible a.written := by
  have names : a.written.map Prod.fst = ({} : Audit).written.map Prod.fst := rfl
  refine ⟨by simp [written], fun x mem => ?_, ?_, fun x mem n hn => ?_⟩
  · have mem : x.1 ∈ a.written.map Prod.fst := List.mem_map_of_mem mem
    rw [names] at mem
    exact isSettingName_of_mem (List.mem_append_right _ mem)
  · rw [names]
    decide +kernel
  · simp only [written, List.mem_cons, List.not_mem_nil, or_false] at mem
    rcases mem with rfl | rfl <;> cases hn

/-- A setting among written ones is found. -/
theorem lookup?_written {settings : List (String × Written)} {name : String} {w : Written}
    (distinct : (settings.map Prod.fst).Nodup) (mem : (name, w) ∈ settings) :
    Value.lookup? (settings.map entryOf) name = some w.value := by
  induction settings with
  | nil => cases mem
  | cons x settings ih =>
    rw [List.map_cons, List.nodup_cons] at distinct
    rw [Value.lookup?, List.map_cons]
    rcases List.mem_cons.1 mem with rfl | mem
    · simp [entryOf, Value.sameKey_text]
    · have other : Value.sameKey (.text x.1) (.text name) = false := by
        rw [Value.sameKey_text]
        refine beq_false_of_ne fun same => distinct.1 ?_
        rw [same]
        exact List.mem_map.2 ⟨_, mem, rfl⟩
      simpa [entryOf, other, Value.lookup?] using ih distinct.2 mem

section Settings

variable {settings : List (String × Written)}

/-- A setting that its check lets through unchanged comes back. -/
theorem setting_written {α : Type} {check : Check α} {name : String} {w : Written} {a : α}
    (part : String) (standard : α) (legible : Legible settings) (mem : (name, w) ∈ settings)
    (passes : check w.value = .ok a) :
    setting part (settings.map entryOf) name check standard = ([], a) := by
  rw [setting, lookup?_written legible.distinct mem]
  simp [passes]

end Settings

theorem platformCheck_name (p : Platform) : platformCheck (.text p.name) = .ok p := by
  simp [platformCheck, textCheck, Platform.ofName?_name, bind, Except.bind]

theorem optional_ofText? (o : Option String) :
    optional textCheck (Written.ofText? o).value = .ok o := by
  cases o <;> rfl

theorem numeralCheck_text {s : String} (h : Text.isDigitMarks s = true) :
    numeralCheck (.text s) = .ok s := by
  simp [numeralCheck, textCheck, h, bind, Except.bind]

theorem timeoutCheck_positive {n : Int} (h : 0 < n) : timeoutCheck (.int n) = .ok (some n) := by
  simp [timeoutCheck, optional, intCheck, h, bind, Except.bind, Except.map]

theorem pathCheck_text {p : Path} (h : p.Plain) : pathCheck (.text p.text) = .ok p := by
  simp [pathCheck, textCheck, h.ofText_text]

/-- The timeout of commands comes back. -/
theorem timeoutCheck_written {f : Firewall} {w : Written} (sound : f.Sound)
    (here : f.written[8]? = some ("command_timeout", w)) :
    timeoutCheck w.value = .ok f.commandTimeout := by
  rw [Firewall.written] at here
  cases given : f.commandTimeout with
  | none =>
    rw [given] at here
    cases here
    rfl
  | some n =>
    rw [given] at here
    cases here
    exact timeoutCheck_positive (sound.timeout n given)

/-- The settings of the packet filters come back. -/
theorem firewallSection_written {f : Firewall} (sound : f.Sound) (legible : Legible f.written) :
    firewallSection (f.written.map entryOf) = ([], f) := by
  have back {α : Type} {check : Check α} {name : String} {w : Written} {a : α} (i : Nat)
      (here : f.written[i]? = some (name, w)) (passes : check w.value = .ok a) (d : α) :
      setting "firewall" (f.written.map entryOf) name check d = ([], a) :=
    setting_written "firewall" d legible (List.mem_of_getElem? here) passes
  have platform := back 0 rfl (platformCheck_name f.platform)
  have iptablesPath := back 1 rfl (optional_ofText? f.iptablesPath)
  have ip6tablesPath := back 2 rfl (optional_ofText? f.ip6tablesPath)
  have ipPath := back 3 rfl (optional_ofText? f.ipPath)
  have unprivilegedUser := back 4 rfl (optional_ofText? f.unprivilegedUser)
  have ipv6AlwaysEnabled := back 5 rfl (rfl : boolCheck (.bool f.ipv6AlwaysEnabled) = .ok _)
  have userTrafficMark := back 6 rfl (numeralCheck_text sound.mark)
  have userTrafficTable := back 7 rfl (numeralCheck_text sound.table)
  have commandTimeout := back 8 rfl (timeoutCheck_written sound rfl)
  simp only [firewallSection, platform, iptablesPath, ip6tablesPath, ipPath, unprivilegedUser,
    ipv6AlwaysEnabled, userTrafficMark, userTrafficTable, commandTimeout]
  rfl

theorem auditSection_written {a : Audit} (sound : a.Sound) :
    auditSection (a.written.map entryOf) = ([], a) := by
  have enabled (d : Bool) :
      setting "audit" (a.written.map entryOf) "enabled" boolCheck d = ([], a.enabled) :=
    setting_written "audit" d a.legible List.mem_cons_self rfl
  have logPath (d : Path) :
      setting "audit" (a.written.map entryOf) "log_path" pathCheck d = ([], a.logPath) :=
    setting_written "audit" d a.legible (List.mem_cons_of_mem _ List.mem_cons_self)
      (pathCheck_text sound.logPath)
  simp only [auditSection, enabled, logPath]
  rfl

/-- The document that some settings are written as. -/
def Machine.sections (m : Machine) : List (String × List (String × Written)) :=
  [("firewall", m.firewall.written), ("audit", m.audit.written)]

/-- The settings of a document that was written come back. -/
theorem ofDocument_written {m : Machine} (firewall : m.firewall.Sound) (audit : m.audit.Sound)
    (legible : Legible m.firewall.written) :
    Machine.ofDocument (.mapping (m.sections.map entryOfSection)) = .ok m := by
  have first : sectionOf (m.sections.map entryOfSection) "firewall" "FirewallConfig" firewallSection =
      ([], m.firewall) := firewallSection_written firewall legible
  have second : sectionOf (m.sections.map entryOfSection) "audit" "AuditConfig" auditSection =
      ([], m.audit) := auditSection_written audit
  have sections : Machine.ofEntries (m.sections.map entryOfSection) = .ok m := by
    rw [Machine.ofEntries, first, second]
    rfl
  have keys : (m.sections.map entryOfSection).all (fun e => e.1.isText) = true := rfl
  have filled : (Value.mapping (m.sections.map entryOfSection)).isBlank = false := rfl
  rw [Machine.ofDocument, filled]
  simp only [Bool.false_eq_true, if_false]
  rw [keys, sections]
  rfl

/-! ## Files -/

section Files

variable {m : Machine}

/-- Settings whose timeout has few enough digits are written. -/
theorem text_eq (short : ∀ n, m.firewall.commandTimeout = some n → n.natAbs < writtenBound) :
    m.text = .ok (String.ofList (charsOf m.sections)) := by
  have timeout : ∃ o, m.firewall.timeoutText = .ok o := by
    rw [Firewall.timeoutText]
    cases given : m.firewall.commandTimeout with
    | none => exact ⟨none, rfl⟩
    | some n => exact ⟨some (toString n), by simp [numberText, short n given]⟩
  obtain ⟨o, timeout⟩ := timeout
  have chars : String.ofList (charsOf m.sections) =
      sectionText "firewall" m.firewall.written ++ sectionText "audit" m.audit.written := by
    rw [← String.toList_inj]
    simp [charsOf, Machine.sections]
  rw [Machine.text, timeout, chars]
  rfl

/-- What is written may be stored and read as it stands. -/
theorem ofBytes_charsOf (legible : ∀ s ∈ m.sections, Legible s.2)
    (names : ∀ s ∈ m.sections, IsSettingName s.1) :
    Yaml.Source.ofBytes (Files.encode (String.ofList (charsOf m.sections))) =
      ⟨charsOf m.sections, none⟩ := by
  have visible := visible_charsOf names legible
  have fit : ∀ c ∈ (String.ofList (charsOf m.sections)).toList, Yaml.isDocumentChar c = true := by
    intro c mem
    rw [String.toList_ofList] at mem
    have range := visible c mem
    simp only [Yaml.isVisible, Bool.or_eq_true, beq_iff_eq, Bool.and_eq_true, decide_eq_true_eq]
      at range
    rcases range with rfl | range
    · decide
    · simp [Yaml.isDocumentChar, range]
  have noReturn : '\r' ∉ (String.ofList (charsOf m.sections)).toList := by
    rw [String.toList_ofList]
    exact fun mem => absurd (visible _ mem) (by decide)
  rw [Yaml.Source.ofBytes_encode fit noReturn, String.toList_ofList]

end Files

/-- Settings that have been accepted are the same again when the text that they are written as has
been stored in a file and loaded from there; and they are written as the same text. -/
theorem Machine.load_text {entries : List (Value × Value)} {m : Machine}
    (accepted : Machine.ofEntries entries = .ok m)
    (short : ∀ n, m.firewall.commandTimeout = some n → n.natAbs < writtenBound) :
    ∃ text, m.text = .ok text ∧
      ∀ (t t' : Files.Tree) (path : Path), t.write path (Files.encode text) = .ok t' →
        (∀ l, t.locate path = .ok l → l ∉ t.locked) →
        ∃ m', Machine.load t' path = .ok m' ∧ m' = m ∧ m'.text = .ok text := by
  obtain ⟨firewall, audit⟩ := sound_of_ofEntries accepted
  have written := Firewall.legible firewall short
  have legible : ∀ s ∈ m.sections, Legible s.2 := by
    simpa [Machine.sections] using ⟨written, Audit.legible m.audit⟩
  have names : ∀ s ∈ m.sections, IsSettingName s.1 := by
    intro s mem
    refine isSettingName_of_mem (List.mem_append_left _ (List.mem_append_left _ ?_))
    exact List.mem_map_of_mem mem
  have distinct : (m.sections.map Prod.fst).Nodup := by
    have : m.sections.map Prod.fst = ["firewall", "audit"] := rfl
    rw [this]
    decide
  have document := read_sections (by simp [Machine.sections]) names distinct legible
  refine ⟨_, text_eq short, fun t t' path stored unlocked => ⟨m, ?_, rfl, text_eq short⟩⟩
  obtain ⟨found, bytes⟩ := Files.Tree.read_of_write stored unlocked
  have source : Machine.ofSource path ⟨charsOf m.sections, none⟩ = .ok m := by
    rw [Machine.ofSource, document]
    simp [ofDocument_written firewall audit written]
  have exists' : fileExists t' path = .ok true := by simp [fileExists, found]
  rw [Machine.load, exists']
  simp [bytes, ofBytes_charsOf legible names, source, bind, Except.bind]

/-- Settings whose texts look like values of other types. -/
def lookalikes : Machine where
  firewall := { iptablesPath := some "", unprivilegedUser := some "null", commandTimeout := some 30 }
  audit := { logPath := .ofText "2024-01-02" }

theorem lookalikes_load_text :
    ∃ text t', lookalikes.text = .ok text ∧
      ({} : Files.Tree).write (.ofText "fwd.yaml") (Files.encode text) = .ok t' ∧
      Machine.load t' (.ofText "fwd.yaml") = .ok lookalikes := by
  have accepted : Machine.ofEntries
      [(.text "firewall", .mapping [(.text "iptables_path", .text ""),
          (.text "unprivileged_user", .text "null"), (.text "command_timeout", .int 30)]),
        (.text "audit", .mapping [(.text "log_path", .text "2024-01-02")])] = .ok lookalikes := by
    decide +kernel
  have short : ∀ n, lookalikes.firewall.commandTimeout = some n → n.natAbs < writtenBound := by
    rintro _ ⟨⟩
    decide +kernel
  obtain ⟨text, written, loads⟩ := Machine.load_text accepted short
  have leads : ({} : Files.Tree).locate (.ofText "fwd.yaml") = .ok ["fwd.yaml"] := by decide +kernel
  have stored : ({} : Files.Tree).write (.ofText "fwd.yaml") (Files.encode text) =
      .ok (({} : Files.Tree).put ["fwd.yaml"] (.file (Files.encode text))) := by
    rw [Files.Tree.write, Files.Tree.openFile, leads]
    rfl
  obtain ⟨_, loaded, rfl, -⟩ := loads _ _ _ stored fun _ _ => List.not_mem_nil
  exact ⟨text, _, written, stored, loaded⟩

end Pinhole.Config
