import Disasm68.Memory.Cursor

/-!
# Cursors on the address bus

The cursor counts modulo 2^32 and goes round a bus that is narrower, whose size always divides 2^32
(`busAddress_advance_toNat`). A word is fetched at an address of the bus. A long is two words, and
the address of the second is not reduced again, so a long at one of the last two addresses of a
narrow bus reaches past its end: it *straddles* the top (`straddles_iff`).
-/

namespace Disasm68

/-- The number of addresses of a processor's bus. -/
def Cpu.busSize (cpu : Cpu) : Nat := cpu.addressMask.toNat + 1

/-- A bus has 22, 24 or 32 lines. -/
theorem Cpu.busSize_cases (cpu : Cpu) :
    cpu.busSize = 0x400000 ∨ cpu.busSize = 0x1000000 ∨ cpu.busSize = 0x100000000 := by
  cases cpu <;> decide

theorem Cpu.busSize_le (cpu : Cpu) : cpu.busSize ≤ 0x100000000 := by
  rcases cpu.busSize_cases with hs | hs | hs <;> omega

/-- Reducing an address to the bus is taking a remainder. -/
theorem Cpu.toNat_and_addressMask (cpu : Cpu) (address : Long) :
    (address &&& cpu.addressMask).toNat = address.toNat % cpu.busSize := by
  rw [BitVec.toNat_and]
  cases cpu
  case m68008 => exact Nat.and_two_pow_sub_one_eq_mod _ 22
  case m68000 | m68010 | m68ec020 => exact Nat.and_two_pow_sub_one_eq_mod _ 24
  all_goals exact Nat.and_two_pow_sub_one_eq_mod _ 32

theorem toNat_add_two (address : Long) : (address + 2).toNat = (address.toNat + 2) % 0x100000000 :=
  BitVec.toNat_add address 2

/-- Two memories that agree on both words of a long agree on the long. -/
theorem Memory.long_congr {m m' : Memory} {a : Long} (h : m.word a = m'.word a)
    (h2 : m.word (a + 2) = m'.word (a + 2)) : m.long a = m'.long a := by
  rw [long, long, h, h2]

/-- The low half of a long is its second word. -/
theorem Memory.setWidth_long (m : Memory) (a : Long) : (m.long a).setWidth 16 = m.word (a + 2) :=
  BitVec.setWidth_append_eq_right

namespace Cursor

/-- The cursor at the same place of another memory. -/
def withMemory (c : Cursor) (m : Memory) : Cursor :=
  { c with memory := m }

@[simp] theorem withMemory_word (c : Cursor) (m : Memory) :
    (c.withMemory m).word = m.word c.busAddress := rfl

@[simp] theorem withMemory_long (c : Cursor) (m : Memory) :
    (c.withMemory m).long = m.long c.busAddress := rfl

@[simp] theorem withMemory_advance (c : Cursor) (m : Memory) (n : Nat) :
    (c.withMemory m).advance n = (c.advance n).withMemory m := rfl

@[simp] theorem advance_cpu (c : Cursor) (n : Nat) : (c.advance n).cpu = c.cpu := rfl

theorem busAddress_toNat (c : Cursor) : c.busAddress.toNat = c.address.toNat % c.cpu.busSize :=
  c.cpu.toNat_and_addressMask c.address

theorem busAddress_toNat_lt (c : Cursor) : c.busAddress.toNat < c.cpu.busSize := by
  rw [busAddress_toNat]
  exact Nat.mod_lt _ (Nat.succ_pos _)

theorem busAddress_le (c : Cursor) : c.busAddress ≤ c.cpu.addressMask :=
  BitVec.le_def.mpr (Nat.le_of_lt_succ c.busAddress_toNat_lt)

/-- Advancing a cursor goes round the bus. -/
theorem busAddress_advance_toNat (c : Cursor) (n : Nat) :
    (c.advance n).busAddress.toNat = (c.busAddress.toNat + 2 * n) % c.cpu.busSize := by
  have hdvd : c.cpu.busSize ∣ 0x100000000 := by
    rcases c.cpu.busSize_cases with h | h | h <;> rw [h] <;> decide
  rw [busAddress_toNat, busAddress_toNat, advance_cpu, Nat.mod_add_mod]
  simp only [advance, BitVec.toNat_add, BitVec.toNat_ofNat, Nat.add_mod_mod]
  exact Nat.mod_mod_of_dvd _ hdvd

/-- A long under the cursor would continue past the last address of the bus. -/
def Straddles (c : Cursor) : Prop :=
  c.cpu.addressMask < c.busAddress + 2

theorem straddles_iff (c : Cursor) :
    c.Straddles ↔ c.cpu.busSize < 0x100000000 ∧ c.cpu.busSize ≤ c.busAddress.toNat + 2 := by
  have hbus := c.busAddress_toNat_lt
  have hmask : c.cpu.addressMask.toNat + 1 = c.cpu.busSize := rfl
  rw [Straddles, BitVec.lt_def, toNat_add_two]
  rcases c.cpu.busSize_cases with h | h | h <;> rw [h] at hbus hmask ⊢ <;> omega

/-- Where a long does not straddle the top of the bus, its second word is the next word. -/
theorem busAddress_add_two {c : Cursor} (h : ¬ c.Straddles) :
    c.busAddress + 2 = (c.advance 1).busAddress := by
  rw [straddles_iff] at h
  have hbus := c.busAddress_toNat_lt
  refine BitVec.eq_of_toNat_eq ?_
  rw [busAddress_advance_toNat, toNat_add_two]
  rcases c.cpu.busSize_cases with hs | hs | hs <;> rw [hs] at hbus h ⊢ <;> omega

/-- Behind a long that straddles the top of the bus there is room for everything that follows. -/
theorem not_straddles_of_straddles {c : Cursor} (h : c.Straddles) {n : Nat} (h2 : 2 ≤ n)
    (hn : n ≤ 12) : ¬ (c.advance n).Straddles := by
  rw [straddles_iff] at h ⊢
  have hbus := c.busAddress_toNat_lt
  rw [busAddress_advance_toNat, advance_cpu]
  rcases c.cpu.busSize_cases with hs | hs | hs <;> rw [hs] at hbus h ⊢ <;> omega

/-- Where the bus goes on, advancing a cursor is adding to its address on the bus. -/
theorem busAddress_advance_of_room {c : Cursor} {n : Nat}
    (h : c.busAddress.toNat + 2 * n < c.cpu.busSize) :
    (c.advance n).busAddress = c.busAddress + BitVec.ofNat 32 (2 * n) := by
  refine BitVec.eq_of_toNat_eq ?_
  rw [busAddress_advance_toNat, BitVec.toNat_add, BitVec.toNat_ofNat]
  rcases c.cpu.busSize_cases with hs | hs | hs <;> rw [hs] at h ⊢ <;> omega

/-- No long straddles where the bus goes on for the longest instruction. -/
theorem not_straddles_of_room {c : Cursor} (h : c.busAddress.toNat + 24 ≤ c.cpu.busSize) {n : Nat}
    (hn : n ≤ 10) : ¬ (c.advance n).Straddles := by
  rw [straddles_iff, busAddress_advance_toNat, advance_cpu, Nat.mod_eq_of_lt (by omega)]
  omega

end Cursor

end Disasm68
