import Disasm68.Cpu
import Disasm68.Memory

/-!
# Cursors

A cursor is a place in memory at which a processor fetches instruction words. The address counts
modulo 2^32; only the fetch itself is reduced to the address bus, so a cursor that passes the end
of the bus continues at its beginning while its address keeps counting.
-/

namespace Disasm68

/-- A place at which words are fetched. -/
structure Cursor where
  memory : Memory
  cpu : Cpu
  address : Long

namespace Cursor

/-- The address that goes out on the bus. -/
def busAddress (c : Cursor) : Long :=
  c.address &&& c.cpu.addressMask

/-- The word under the cursor. -/
def word (c : Cursor) : Word :=
  c.memory.word c.busAddress

/-- The long under the cursor. -/
def long (c : Cursor) : Long :=
  c.memory.long c.busAddress

/-- The byte under the cursor. It occupies the low half of a word. -/
def byte (c : Cursor) : Byte :=
  c.word.setWidth 8

/-- The cursor some words further. -/
def advance (c : Cursor) (words : Nat) : Cursor :=
  { c with address := c.address + BitVec.ofNat 32 (2 * words) }

@[simp] theorem advance_zero (c : Cursor) : c.advance 0 = c := by
  simp [advance]

/-- Two advances are one by the sum, also where the address wraps in between. -/
@[simp] theorem advance_advance (c : Cursor) (m n : Nat) :
    (c.advance m).advance n = c.advance (m + n) := by
  simp [advance, Nat.mul_add, BitVec.ofNat_add, BitVec.add_assoc]

end Cursor

end Disasm68
