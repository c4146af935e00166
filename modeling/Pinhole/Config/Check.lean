import Pinhole.Config.Fault
import Pinhole.Config.Settings
import Pinhole.Number.Lenient
import Pinhole.Text.DigitMark
import Pinhole.Value

/-!
# Checking settings

Settings from a value of which nothing is known. Every setting is checked in the order in which the
settings are listed, and all that are refused are reported together. A setting that is absent has
its default; names that are no settings are ignored.

A check is lenient about how a value is spelled: `"yes"` is a truth value and `"1_000"` an integer.
-/

namespace Pinhole.Config

/-- A check of one value. -/
abbrev Check (α : Type) := Value → Except Cause α

/-! ## Types -/

/-- The text that bytes hold. -/
def utf8? (bytes : List UInt8) : Option String := String.fromUTF8? (ByteArray.mk bytes.toArray)

/-- A text. Bytes may stand for it, and a torn text is taken with its surrogates replaced. -/
def textCheck : Check String
  | .text s => .ok s
  | .foreign (.torn s) => .ok s.mended
  | .foreign (.bytes content) =>
    match utf8? content with
    | some s => .ok s
    | none => .error .notUnicode
  | _ => .error .notText

/-- A path, by its text. -/
def pathCheck : Check Path := fun v =>
  match textCheck v with
  | .ok s => .ok (.ofText s)
  | .error _ => .error .notPath

/-- A value that a text spells, with the cause that a text without one has. Bytes are read as the
text that they hold. -/
def spelled {α : Type} (read : String → Except Cause α) (unclear other : Cause) : Check α
  | .text s => read s
  | .foreign (.torn _) => .error .notUnicode
  | .foreign (.bytes content) =>
    match utf8? content with
    | some s => read s
    | none => .error unclear
  | _ => .error other

/-- The truth value that a word means, in any case of its ASCII letters. -/
def boolWord? (s : String) : Option Bool :=
  let word := String.ofList (s.toList.map Char.toLower)
  if ["1", "on", "t", "true", "y", "yes"].contains word then some true
  else if ["0", "off", "f", "false", "n", "no"].contains word then some false
  else none

/-- The least integer above the signed words of 64 bits. -/
def wordBound : Int := 0x8000000000000000

/-- Whether an integer fits a signed word of 64 bits. -/
def fitsWord (n : Int) : Bool := -wordBound ≤ n && n < wordBound

/-- The truth value that an integer means. -/
def boolOfInt (n : Int) : Except Cause Bool :=
  if n = 0 then .ok false
  else if n = 1 then .ok true
  else if fitsWord n then .error .unclearBool
  else .error .notBool

/-- The truth value that a text spells. -/
def boolOfText (s : String) : Except Cause Bool :=
  match boolWord? s with
  | some b => .ok b
  | none => .error .unclearBool

/-- A truth value. -/
def boolCheck : Check Bool
  | .bool b => .ok b
  | .int n => boolOfInt n
  | .float x =>
    match x.whole? with
    | some n => boolOfInt n
    | none => .error .notBool
  | v => spelled boolOfText .unclearBool .notBool v

/-- The integer that a text spells. -/
def intOfText (s : String) : Except Cause Int :=
  match Lenient.integer s with
  | .ok n => .ok n
  | .error .unclear => .error .unclearInt
  | .error .huge => .error .hugeInt

/-- An integer. A floating-point number has to be whole and to fit a word. -/
def intCheck : Check Int
  | .int n => .ok n
  | .bool b => .ok (if b then 1 else 0)
  | .float x =>
    if !x.isFinite then .error .infiniteInt
    else
      match x.whole? with
      | none => .error .fractionalInt
      | some n => if -wordBound < n ∧ n < wordBound then .ok n else .error .hugeInt
  | v => spelled intOfText .unclearInt .notInt v

/-- Nothing, or a value that passes the check. -/
def optional {α : Type} (check : Check α) : Check (Option α)
  | .null => .ok none
  | v => (check v).map some

/-! ## Rules of single settings -/

/-- A platform by its name. -/
def platformCheck : Check Platform := fun v => do
  let name ← textCheck v
  match Platform.ofName? name with
  | some p => .ok p
  | none =>
    .error (.broken ("Platform must be one of: " ++
      (Value.list (Platform.all.map fun p => .text p.name)).display))

/-- A mark or a table: digit marks only. -/
def numeralCheck : Check String := fun v => do
  let s ← textCheck v
  if Text.isDigitMarks s then .ok s
  else .error (.broken "Mark and table id must be non-negative integers")

/-- A number of seconds, or none. -/
def timeoutCheck : Check (Option Int) := fun v => do
  match ← optional intCheck v with
  | some n => if 0 < n then .ok (some n) else .error (.broken "command_timeout must be positive")
  | none => .ok none

/-! ## Sections -/

/-- The result of checks that go on after a fault: the faults so far, and a value that stands in
for a refused one. -/
abbrev Checked (α : Type) := List Fault × α

/-- A setting of a section: its default when it is absent or refused, and the fault if it is
refused. -/
def setting {α : Type} (part : String) (entries : List (Value × Value)) (name : String)
    (check : Check α) (standard : α) : Checked α :=
  match Value.lookup? entries name with
  | none => ([], standard)
  | some v =>
    match check v with
    | .ok a => ([], a)
    | .error cause => ([⟨[part, name], cause⟩], standard)

/-- The section of the packet filters. -/
def firewallSection (entries : List (Value × Value)) : Checked Firewall :=
  let d : Firewall := {}
  let field {α : Type} (name : String) (check : Check α) (standard : α) : Checked α :=
    setting "firewall" entries name check standard
  let (e₁, platform) := field "platform" platformCheck d.platform
  let (e₂, iptablesPath) := field "iptables_path" (optional textCheck) d.iptablesPath
  let (e₃, ip6tablesPath) := field "ip6tables_path" (optional textCheck) d.ip6tablesPath
  let (e₄, ipPath) := field "ip_path" (optional textCheck) d.ipPath
  let (e₅, unprivilegedUser) := field "unprivileged_user" (optional textCheck) d.unprivilegedUser
  let (e₆, ipv6AlwaysEnabled) := field "ipv6_always_enabled" boolCheck d.ipv6AlwaysEnabled
  let (e₇, userTrafficMark) := field "user_traffic_mark" numeralCheck d.userTrafficMark
  let (e₈, userTrafficTable) := field "user_traffic_table" numeralCheck d.userTrafficTable
  let (e₉, commandTimeout) := field "command_timeout" timeoutCheck d.commandTimeout
  (e₁ ++ e₂ ++ e₃ ++ e₄ ++ e₅ ++ e₆ ++ e₇ ++ e₈ ++ e₉,
    { platform, iptablesPath, ip6tablesPath, ipPath, unprivilegedUser, ipv6AlwaysEnabled,
      userTrafficMark, userTrafficTable, commandTimeout })

/-- The section of the audit trail. -/
def auditSection (entries : List (Value × Value)) : Checked Audit :=
  let d : Audit := {}
  let (e₁, enabled) := setting "audit" entries "enabled" boolCheck d.enabled
  let (e₂, logPath) := setting "audit" entries "log_path" pathCheck d.logPath
  (e₁ ++ e₂, { enabled, logPath })

/-- A section by its name; an absent one is all defaults. -/
def sectionOf {α : Type} (entries : List (Value × Value)) (name part : String)
    (check : List (Value × Value) → Checked α) : Checked α :=
  match Value.lookup? entries name with
  | none => check []
  | some (.mapping inner) => check inner
  | some _ => ([⟨[name], .notSection part⟩], (check []).2)

/-- The settings that the entries of a document describe, or all that is wrong with them. -/
def Machine.ofEntries (entries : List (Value × Value)) : Except (List Fault) Machine :=
  let (e₁, firewall) := sectionOf entries "firewall" "FirewallConfig" firewallSection
  let (e₂, audit) := sectionOf entries "audit" "AuditConfig" auditSection
  if (e₁ ++ e₂).isEmpty then .ok { firewall, audit } else .error (e₁ ++ e₂)

/-- An empty document describes the defaults. -/
theorem Machine.ofEntries_nil : Machine.ofEntries [] = .ok {} := by
  simp [Machine.ofEntries, sectionOf, Value.lookup?, firewallSection, auditSection, setting]

end Pinhole.Config
