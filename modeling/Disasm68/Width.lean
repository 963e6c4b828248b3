import Disasm68.Numeral.Hex

/-!
# Widths of data

The machine knows three widths: bytes, words of two bytes and longs of four. All arithmetic on them
wraps, which is what `BitVec` addition does. A `Datum` is a value that carries its width, so that
an operand need not say twice how wide it is.
-/

namespace Disasm68

/-- Eight bits. -/
abbrev Byte := BitVec 8

/-- Sixteen bits, the unit in which instructions are encoded. -/
abbrev Word := BitVec 16

/-- Thirty-two bits; also the type of an address. -/
abbrev Long := BitVec 32

/-- The width an instruction operates on. -/
inductive Size where
  | byte
  | word
  | long
  deriving DecidableEq, Repr

namespace Size

/-- The size suffix of a mnemonic. -/
def suffix : Size → String
  | .byte => ".b"
  | .word => ".w"
  | .long => ".l"

end Size

/-- A value together with its width. -/
inductive Datum where
  | byte (value : Byte)
  | word (value : Word)
  | long (value : Long)
  deriving DecidableEq, Repr

namespace Datum

/-- The width of a value. -/
def size : Datum → Size
  | .byte _ => .byte
  | .word _ => .word
  | .long _ => .long

/-- The value as an unsigned numeral. -/
def unsigned : Datum → String
  | .byte v => Hex.unsigned v
  | .word v => Hex.unsigned v
  | .long v => Hex.unsigned v

/-- The value as a signed numeral. -/
def signed : Datum → String
  | .byte v => Hex.signed v
  | .word v => Hex.signed v
  | .long v => Hex.signed v

end Datum

end Disasm68
