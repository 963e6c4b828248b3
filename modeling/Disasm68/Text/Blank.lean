/-!
# Blank characters

The characters that separate words: the ASCII controls and blank, and the spaces and separators that
Unicode gives the property `White_Space`. The zero-width space is not one of them.
-/

namespace Disasm68.Blank

/-- The ranges of blank characters, first and last code point. -/
def ranges : List (Nat × Nat) :=
  [(0x0009, 0x000d), (0x0020, 0x0020), (0x0085, 0x0085), (0x00a0, 0x00a0), (0x1680, 0x1680),
   (0x2000, 0x200a), (0x2028, 0x2029), (0x202f, 0x202f), (0x205f, 0x205f), (0x3000, 0x3000)]

/-- Whether a character is blank. -/
def isBlank (c : Char) : Bool :=
  ranges.any fun (first, last) => first ≤ c.toNat && c.toNat ≤ last

end Disasm68.Blank
