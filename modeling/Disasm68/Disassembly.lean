import Disasm68.Family.Decode
import Disasm68.Opcode.Lookup

/-!
# Disassembly of one instruction

`disassemble` decodes the instruction at an address. It never fails: a word that starts no
instruction of the processor is shown as data and takes two bytes. No instruction takes less
(`two_le_length`), which is why a sweep over a buffer comes to an end.

`Disassembly.packed` puts length and stepping hint into one long, as debuggers want them.
-/

namespace Disasm68

/-- The two bits of a packed result that hold the stepping hint. -/
def Step.bits : Step → Long
  | .plain => 0
  | .over => 0x20000000
  | .out => 0x40000000

/-- An instruction as it is shown. -/
structure Disassembly where
  /-- The address of the opcode. -/
  address : Long
  opcode : Word
  text : String
  /-- The number of bytes, opcode included. -/
  length : Nat
  step : Step
  cpu : Cpu
  deriving DecidableEq

namespace Disassembly

/-- Sixteen bits of length, the stepping hint, and a bit that says that there is one. -/
def packed (d : Disassembly) : Long :=
  BitVec.ofNat 32 (d.length % 0x10000) ||| d.step.bits ||| 0x80000000

/-- The place on the address bus of a word of the instruction. -/
def wordAddress (d : Disassembly) (index : Nat) : Long :=
  (d.address + BitVec.ofNat 32 (2 * index)) &&& d.cpu.addressMask

end Disassembly

/-- The instruction whose opcode is under a cursor, with the number of words it takes. -/
def Cursor.decode (c : Cursor) : Instruction × Nat :=
  let decoded := (c.cpu.family c.word).decode c.cpu.indexFormat c.word |>.run (c.advance 1)
  (decoded.1, 1 + decoded.2)

/-- The instruction at an address. -/
def disassemble (memory : Memory) (address : Long) (cpu : Cpu) : Disassembly :=
  let c : Cursor := { memory, cpu, address }
  let (instruction, words) := c.decode
  { address
    opcode := c.word
    text := instruction.text (c.advance 1).address
    length := 2 * words
    step := (cpu.family c.word).step
    cpu }

/-- An instruction has at least the two bytes of its opcode. -/
theorem two_le_length (memory : Memory) (address : Long) (cpu : Cpu) :
    2 ≤ (disassemble memory address cpu).length := by
  simp only [disassemble, Cursor.decode]
  omega

/-- The instruction at an address for a processor given by its id. -/
def disassembleById (memory : Memory) (address : Long) (id : Nat) : Except CpuError Disassembly :=
  (disassemble memory address) <$> Cpu.ofId id

end Disasm68
