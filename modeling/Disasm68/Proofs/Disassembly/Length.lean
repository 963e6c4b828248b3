import Disasm68.Disassembly
import Disasm68.Proofs.Family.Mnemonic
import Disasm68.Proofs.Family.Words

/-!
# The length of an instruction

An instruction takes an even number of bytes, two at least and twenty-two at most, and the address
of a cursor that goes over it counts exactly these, also where it wraps (`disassemble_length`). A
length below 2^16 keeps clear of the other bits of a packed result, which therefore tells length and
stepping hint apart (`packed_and_lengthMask`, `packed_and_stepMask`).
-/

namespace Disasm68

/-! ## Cursors that go over an instruction -/

namespace Cursor

/-- An instruction takes eleven words at most, opcode included. -/
theorem decode_words_le (c : Cursor) : c.decode.2 ≤ 11 := by
  have h := ((c.cpu.family c.word).decode_words_le c.cpu.indexFormat c.word).run (c.advance 1)
  simp only [decode]
  omega

/-- The address moves by the bytes of the words, as long as these do not go round all addresses. -/
theorem address_advance_sub (c : Cursor) {n : Nat} (h : 2 * n < 0x100000000) :
    ((c.advance n).address - c.address).toNat = 2 * n := by
  simp only [advance, BitVec.add_comm c.address, BitVec.add_sub_cancel, BitVec.toNat_ofNat]
  exact Nat.mod_eq_of_lt h

end Cursor

/-! ## Packed results -/

/-- The stepping hint is read off its bits. -/
theorem Step.bits_inj {s t : Step} : s.bits = t.bits ↔ s = t := by
  cases s <;> cases t <;> decide

namespace Disassembly

/-- The bits of a packed result that hold the length. -/
def lengthMask : Long := 0xffff

/-- The bits of a packed result that hold the stepping hint. -/
def stepMask : Long := 0x60000000

/-- The bit of a packed result that says that there is a hint. -/
def supported : Long := 0x80000000

theorem ofNat_and_lengthMask {n : Nat} (h : n < 0x10000) :
    BitVec.ofNat 32 n &&& lengthMask = BitVec.ofNat 32 n := by
  have hmask : lengthMask.toNat = 2 ^ 16 - 1 := rfl
  refine BitVec.eq_of_toNat_eq ?_
  rw [BitVec.toNat_and, BitVec.toNat_ofNat, hmask, Nat.and_two_pow_sub_one_eq_mod]
  omega

/-- A length keeps clear of every bit above it. -/
theorem ofNat_and_eq_zero {n : Nat} (h : n < 0x10000) {mask : Long}
    (hmask : lengthMask &&& mask = 0#32) : BitVec.ofNat 32 n &&& mask = 0#32 := by
  rw [← ofNat_and_lengthMask h, BitVec.and_assoc, hmask, BitVec.and_zero]

/-- What a mask keeps of a packed result, part by part. -/
theorem packed_and {d : Disassembly} (h : d.length < 0x10000) (mask : Long) :
    d.packed &&& mask =
      BitVec.ofNat 32 d.length &&& mask ||| d.step.bits &&& mask ||| supported &&& mask := by
  rw [packed, Nat.mod_eq_of_lt h, BitVec.and_or_distrib_right, BitVec.and_or_distrib_right]
  rfl

/-- The length is read back from a packed result. -/
theorem packed_and_lengthMask {d : Disassembly} (h : d.length < 0x10000) :
    (d.packed &&& lengthMask).toNat = d.length := by
  have hstep : d.step.bits &&& lengthMask = 0#32 := by cases d.step <;> decide
  have hsupported : supported &&& lengthMask = 0#32 := by decide
  rw [packed_and h, ofNat_and_lengthMask h, hstep, hsupported, BitVec.or_zero, BitVec.or_zero,
    BitVec.toNat_ofNat]
  omega

/-- So are the bits of the stepping hint. -/
theorem packed_and_stepMask {d : Disassembly} (h : d.length < 0x10000) :
    d.packed &&& stepMask = d.step.bits := by
  have hlength : BitVec.ofNat 32 d.length &&& stepMask = 0#32 := ofNat_and_eq_zero h (by decide)
  have hstep : d.step.bits &&& stepMask = d.step.bits := by cases d.step <;> decide
  have hsupported : supported &&& stepMask = 0#32 := by decide
  rw [packed_and h, hlength, hstep, hsupported, BitVec.or_zero, BitVec.zero_or]

end Disassembly

/-! ## What is decoded -/

/-- An instruction takes an even number of bytes, and not more than the longest one. -/
theorem even_length (memory : Memory) (address : Long) (cpu : Cpu) :
    2 ∣ (disassemble memory address cpu).length :=
  ⟨_, rfl⟩

theorem length_le (memory : Memory) (address : Long) (cpu : Cpu) :
    (disassemble memory address cpu).length ≤ 22 := by
  have h := Cursor.decode_words_le { memory, cpu, address }
  simp only [disassemble]
  omega

/-- No instruction is shown without a mnemonic. -/
theorem text_ne_empty (memory : Memory) (address : Long) (cpu : Cpu) :
    (disassemble memory address cpu).text ≠ "" := by
  let c : Cursor := { memory, cpu, address }
  have hmnemonic : c.decode.1.mnemonic ≠ "" :=
    (Family.decode_mnemonic_ne_empty cpu.indexFormat c.word (cpu.family c.word)).run (c.advance 1)
  obtain ⟨rest, htext⟩ := c.decode.1.text_eq_append (c.advance 1).address
  intro h
  exact hmnemonic (String.append_eq_empty_iff.mp (htext.symm.trans h)).1

/-- **The shape of a result.** Whatever the memory holds and wherever the instruction stands, there
is a text, the address is the one asked for, and the length is an even number of bytes between two
and twenty-two, the same as the distance the address of the cursor has moved. Masks read length and
stepping hint back from the packed result, and no bit of the length is one of the bits above. -/
theorem disassemble_length (memory : Memory) (address : Long) (cpu : Cpu) :
    let c : Cursor := { memory, cpu, address }
    let d := disassemble memory address cpu
    (d.text ≠ "" ∧ d.address = address) ∧
      (2 ∣ d.length ∧ 2 ≤ d.length ∧ d.length ≤ 22) ∧
      ((c.advance c.decode.2).address - address).toNat = d.length ∧
      (d.packed &&& Disassembly.lengthMask).toNat = d.length ∧
      (∀ step : Step, d.packed &&& Disassembly.stepMask = step.bits ↔ d.step = step) ∧
      BitVec.ofNat 32 d.length &&& (Disassembly.stepMask ||| Disassembly.supported) = 0 := by
  intro c d
  have hle : d.length ≤ 22 := length_le memory address cpu
  have hshort : d.length < 0x10000 := by omega
  refine ⟨⟨text_ne_empty memory address cpu, rfl⟩,
    ⟨even_length memory address cpu, two_le_length memory address cpu, hle⟩, ?_,
    Disassembly.packed_and_lengthMask hshort, fun step => ?_,
    Disassembly.ofNat_and_eq_zero hshort (by decide)⟩
  · have hwords := c.decode_words_le
    exact c.address_advance_sub (by omega)
  · rw [Disassembly.packed_and_stepMask hshort, Step.bits_inj]

end Disasm68
