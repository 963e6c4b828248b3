import Disasm68.Disassembly
import Disasm68.Text.Blank
import Disasm68.Text.Uppercase

/-!
# Columns of an instruction

For display an instruction is taken apart into its bytes, the mnemonic, which reaches up to the
first blank, and the operands with everything that follows. The mnemonic may be put into upper case.

The whole text with its new mnemonic keeps what stood after the old one. Where that begins is
counted in bytes of the new mnemonic, so a change of case that changes the length eats into the rest
of the text or repeats part of it, and there is no text if the place is inside a character or past
the end. Instructions are ASCII, where this does not happen.
-/

namespace Disasm68

/-- An instruction taken apart for display. -/
structure Columns where
  bytes : String
  mnemonic : String
  operands : String
  /-- Mnemonic and operands as they are spaced in the instruction. -/
  text : String
  deriving DecidableEq, Repr

namespace Columns

/-- The characters before the first blank. -/
def mnemonicOf (text : List Char) : List Char :=
  text.takeWhile (· ≠ ' ')

/-- The characters after the first blank and all blanks that follow it. -/
def operandsOf (text : List Char) : List Char :=
  ((text.dropWhile (· ≠ ' ')).drop 1).dropWhile Blank.isBlank

/-- The number of bytes that encode a text. -/
def byteCount (text : List Char) : Nat :=
  text.foldr (fun c n => c.utf8Size + n) 0

/-- A text without its first bytes, unless they end inside a character or the text is shorter. -/
def dropBytes : Nat → List Char → Option (List Char)
  | 0, text => some text
  | _ + 1, [] => none
  | n + 1, c :: text =>
    if c.utf8Size ≤ n + 1 then dropBytes (n + 1 - c.utf8Size) text else none

/-- The text of an instruction with another mnemonic. -/
def withMnemonic (mnemonic text : List Char) : Option (List Char) :=
  (dropBytes (byteCount mnemonic) text).map (mnemonic ++ ·)

/-- The mnemonic of an instruction, in upper case if wanted. -/
def shownMnemonic (uppercase : Bool) (text : List Char) : List Char :=
  if uppercase then Uppercase.text (mnemonicOf text) else mnemonicOf text

end Columns

namespace Disassembly

/-- The words of an instruction, read back from where they are on the address bus. -/
def words (d : Disassembly) (memory : Memory) : List Word :=
  (List.range (d.length / 2)).map fun i => memory.word (d.wordAddress i)

/-- The bytes of an instruction in hexadecimal. -/
def hexColumn (d : Disassembly) (memory : Memory) : String :=
  String.join ((d.words memory).map fun w => Hex.upperPadded 4 w.toNat)

/-- The text of an instruction with the mnemonic in the case wanted. -/
def shownText (d : Disassembly) (uppercase : Bool) : Option String :=
  let text := d.text.toList
  (Columns.withMnemonic (Columns.shownMnemonic uppercase text) text).map String.ofList

/-- An instruction taken apart for display. -/
def columns (d : Disassembly) (memory : Memory) (uppercase : Bool) : Option Columns := do
  let text := d.text.toList
  return {
    bytes := d.hexColumn memory
    mnemonic := String.ofList (Columns.shownMnemonic uppercase text)
    operands := String.ofList (Columns.operandsOf text)
    text := ← d.shownText uppercase }

end Disassembly

end Disasm68
