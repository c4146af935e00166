/-!
# Bytes in base 64

Bytes as text: every character of an alphabet of sixty-four stands for six bits, and four characters
for three bytes. A reader ignores characters outside the alphabet. Padding ends the text once it
fills a group of four, and is ignored where it cannot; a text that ends inside a group is no
encoding.
-/

namespace Pinhole.Text

/-- The six bits that a character stands for. -/
def sixBits? (c : Char) : Option Nat :=
  if 'A' ≤ c ∧ c ≤ 'Z' then some (c.toNat - 'A'.toNat)
  else if 'a' ≤ c ∧ c ≤ 'z' then some (c.toNat - 'a'.toNat + 26)
  else if '0' ≤ c ∧ c ≤ '9' then some (c.toNat - '0'.toNat + 52)
  else if c = '+' then some 62
  else if c = '/' then some 63
  else none

/-- A group of characters that is being read: how many there are so far, and the bits of theirs that
no byte has taken yet. -/
structure BitGroup where
  size : Nat := 0
  bits : Nat := 0

/-- The group with another character, and the byte that this completes. -/
def BitGroup.add (g : BitGroup) (six : Nat) : BitGroup × Option UInt8 :=
  match g.size with
  | 0 => (⟨1, six⟩, none)
  | 1 => (⟨2, six % 16⟩, some (UInt8.ofNat (g.bits * 4 + six / 16)))
  | 2 => (⟨3, six % 4⟩, some (UInt8.ofNat (g.bits * 16 + six / 4)))
  | _ => ({}, some (UInt8.ofNat (g.bits * 64 + six)))

/-- The bytes of the rest of a text, after some characters of a group and some padding. -/
def groupBytes? (g : BitGroup) (pads : Nat) : List Char → Option (List UInt8)
  | [] => if g.size = 0 then some [] else none
  | c :: cs =>
    match sixBits? c with
    | some six =>
      let (g, byte) := g.add six
      (groupBytes? g 0 cs).map (byte.toList ++ ·)
    | none =>
      if c ≠ '=' ∨ g.size < 2 then groupBytes? g pads cs
      else if 4 ≤ g.size + pads + 1 then some []
      else groupBytes? g (pads + 1) cs

/-- The bytes that a text of ASCII characters encodes. -/
def base64Bytes? (s : String) : Option (List UInt8) :=
  if s.toList.all fun c => c.toNat < 0x80 then groupBytes? {} 0 s.toList else none

example : ["", "Zg==", "Zm9v", "Z m\n8=", "Zm8=Zg==", "Zg", "Zg=", "=Zm9v"].map base64Bytes? =
    [some [], some [102], some [102, 111, 111], some [102, 111], some [102, 111], none, none,
      some [102, 111, 111]] := by decide +kernel

end Pinhole.Text
