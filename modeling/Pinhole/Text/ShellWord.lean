/-!
# Shell words

A command line shown to the user is one that a shell would read back as the same words. A word of
letters, digits and a few safe marks is shown as it is; any other word is put between single
quotes, and a single quote inside it leaves them for a moment: `it's` is shown as `'it'"'"'s'`.
-/

namespace Pinhole.Text

/-- Characters that a shell reads as themselves outside quotes. -/
def isShellSafe (c : Char) : Bool :=
  c.isAlphanum || "_@%+=:,./-".toList.contains c

/-- One word between single quotes, from its first character on. -/
def shellQuotedTail : List Char → List Char
  | [] => ['\'']
  | '\'' :: cs => '\'' :: '"' :: '\'' :: '"' :: '\'' :: shellQuotedTail cs
  | c :: cs => c :: shellQuotedTail cs

/-- One word as a shell reads it. -/
def shellWord (s : String) : String :=
  if s.isEmpty then "''"
  else if s.toList.all isShellSafe then s
  else String.ofList ('\'' :: shellQuotedTail s.toList)

/-- A command line as a shell reads it. -/
def shellLine (words : List String) : String := " ".intercalate (words.map shellWord)

/-- A word of safe characters is shown as it is. -/
theorem shellWord_of_safe {s : String} (ne : s.isEmpty = false)
    (safe : s.toList.all isShellSafe = true) : shellWord s = s := by
  simp [shellWord, ne, safe]

end Pinhole.Text
