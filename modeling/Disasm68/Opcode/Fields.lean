import Disasm68.Condition
import Disasm68.Operand.Register

/-!
# Fields of opcodes and extension words

The opcode holds up to two register numbers, an effective address field, a condition and small
constants at fixed positions. Many instructions have a second word, the extension, with registers
and options of its own. An instruction reads only the fields that its family gives a meaning.
-/

namespace Disasm68

namespace Opcode

/-- The register in bits 9 to 11. -/
def x (opcode : Word) : BitVec 3 := opcode.extractLsb' 9 3

/-- The register in bits 0 to 2. -/
def y (opcode : Word) : BitVec 3 := opcode.extractLsb' 0 3

/-- The effective address field in bits 0 to 5. -/
def field (opcode : Word) : BitVec 6 := opcode.extractLsb' 0 6

/-- The destination field of a move. It stands in bits 6 to 11 with mode and register swapped. -/
def destination (opcode : Word) : BitVec 6 :=
  opcode.extractLsb' 6 3 ++ opcode.extractLsb' 9 3

/-- The condition in bits 8 to 11. -/
def condition (opcode : Word) : Condition := .ofBits (opcode.extractLsb' 8 4)

/-- A count of one to eight in bits 9 to 11; zero stands for eight. -/
def quick (opcode : Word) : Nat :=
  if x opcode = 0 then 8 else (x opcode).toNat

/-- The number of a coprocessor in bits 9 to 11. -/
def coprocessor (opcode : Word) : String := toString (x opcode).toNat

end Opcode

namespace Extension

/-- The register in bits 12 to 15. -/
def register (w : Word) : Register := .ofBits (w.extractLsb' 12 4)

/-- The data register in bits 12 to 14. -/
def high (w : Word) : BitVec 3 := w.extractLsb' 12 3

/-- The data register in bits 0 to 2. -/
def low (w : Word) : BitVec 3 := w.extractLsb' 0 3

/-- The letter of a signed or unsigned operation. -/
def sign (w : Word) : String := if w.getLsbD 11 then "s" else "u"

/-- Whether an operation has a result of two longs. -/
def isWide (w : Word) : Bool := w.getLsbD 10

end Extension

end Disasm68
