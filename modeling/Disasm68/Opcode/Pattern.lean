import Disasm68.Cpu.Availability
import Disasm68.Family
import Disasm68.Opcode.Fields
import Disasm68.Operand.AddressMode

/-!
# Opcode patterns

A pattern says which opcode words belong to a family: those that agree with `bits` on the positions
in `mask` and whose effective address field selects one of the `modes`. A move has a second field,
for its destination, which must name a place that can be stored to.

Patterns overlap. `Pattern.specificity` counts the positions a pattern fixes, by which
`Disasm68.Opcode.Lookup` decides which pattern an opcode belongs to.
-/

namespace Disasm68

/-- The encoding of an instruction family. -/
structure Pattern where
  family : Family
  mask : Word
  bits : Word
  /-- The modes of the effective address; zero if there is no such field or nothing is refused. -/
  modes : Word := 0
  availability : Availability := .always
  deriving DecidableEq, Repr

namespace Pattern

/-- Whether an opcode word is encoded by a pattern. -/
def accepts (p : Pattern) (opcode : Word) : Bool :=
  opcode &&& p.mask == p.bits && storable && AddressMode.admits p.modes (Opcode.field opcode)
where
  storable : Bool := match p.family with
    | .move _ => AddressMode.admits AddressMode.dataAlterable (Opcode.destination opcode)
    | _ => true

/-- The number of positions a pattern fixes. -/
def specificity (p : Pattern) : Nat :=
  p.mask.cpop.toNat

/-- Whether a pattern stands for no instruction. -/
def isIllegal (p : Pattern) : Bool :=
  p.family = .illegal

/-- The pattern of all opcodes that no other pattern accepts. It encodes the one word that is set
aside to be illegal. -/
def illegal : Pattern where
  family := .illegal
  mask := 0xffff
  bits := 0x4afc

end Pattern

end Disasm68
