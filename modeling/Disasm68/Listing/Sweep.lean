import Disasm68.Disassembly

/-!
# Linear sweep

A buffer is taken for code from its first byte on: each instruction begins where the one before it
ends. The sweep stops when the limit on the number of instructions is reached, at the end of the
buffer, at a single last byte, or at an instruction that would need more bytes than are left. In the
last two cases the bytes that are left are the `Tail` of the sweep.

The recursion ends because an instruction has at least two bytes (`two_le_length`), and
`sweepFrom_eq` says that what was found before does not influence what is found next.
-/

namespace Disasm68

/-- What is left of a buffer behind the last instruction. -/
inductive Tail where
  /-- Nothing, or nothing that was looked at. -/
  | empty
  /-- A single byte. -/
  | stray (byte : Byte)
  /-- The beginning of an instruction that is longer. -/
  | truncated (bytes : List Byte)
  deriving DecidableEq

/-- The instructions of a buffer and what is left of it. -/
structure Sweep where
  code : List Disassembly
  tail : Tail
  deriving DecidableEq

namespace Image

/-- The address of a byte of an image. -/
def addressOf (image : Image) (offset : Nat) : Long :=
  image.base + BitVec.ofNat 32 offset

/-- The sweep from an offset on, behind instructions already found, the latest of them first. -/
def sweepFrom (image : Image) (cpu : Cpu) (found : List Disassembly) (limit : Option Nat)
    (offset : Nat) : Sweep :=
  if limit = some 0 then
    ⟨found.reverse, .empty⟩
  else if h : offset < image.bytes.size then
    let left := image.bytes.size - offset
    if left = 1 then
      ⟨found.reverse, .stray image.bytes[offset]⟩
    else
      let d := disassemble image.memory (image.addressOf offset) cpu
      if d.length ≤ left then
        image.sweepFrom cpu (d :: found) (limit.map (· - 1)) (offset + d.length)
      else
        ⟨found.reverse, .truncated (image.bytes.extract offset).toList⟩
  else
    ⟨found.reverse, .empty⟩
termination_by image.bytes.size - offset
decreasing_by
  have := two_le_length image.memory (image.addressOf offset) cpu
  omega

/-- Instructions found before come first and change nothing else. -/
theorem sweepFrom_eq (image : Image) (cpu : Cpu) (found : List Disassembly) (limit : Option Nat)
    (offset : Nat) :
    image.sweepFrom cpu found limit offset =
      ⟨found.reverse ++ (image.sweepFrom cpu [] limit offset).code,
        (image.sweepFrom cpu [] limit offset).tail⟩ := by
  induction hleft : image.bytes.size - offset using Nat.strongRecOn
    generalizing found limit offset with
  | ind left ih =>
    have h2 := two_le_length image.memory (image.addressOf offset) cpu
    have step (found : List Disassembly) (h : offset < image.bytes.size) :=
      ih _ (by omega) found (limit.map (· - 1))
        (offset + (disassemble image.memory (image.addressOf offset) cpu).length) rfl
    rw [sweepFrom, sweepFrom.eq_def image cpu [] limit offset]
    split
    · simp
    · split
      · dsimp only
        split
        · simp
        · split
          · rw [step _ ‹_›, step [_] ‹_›]
            simp
          · simp
      · simp

/-- The instructions of an image. -/
def sweep (image : Image) (cpu : Cpu) (limit : Option Nat) : Sweep :=
  image.sweepFrom cpu [] limit 0

end Image

end Disasm68
