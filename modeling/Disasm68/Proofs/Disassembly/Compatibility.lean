import Disasm68.Proofs.Disassembly.Agreement
import Disasm68.Proofs.Family.IndexWords
import Disasm68.Proofs.Opcode.Availability

/-!
# Upward compatibility

A later processor executes what an earlier one does, and shows it in the same way
(`disassemble_compatible`). There are two exceptions: the module calls, which later processors
dropped, and index words with bits that have a meaning from the 68020 on.
-/

namespace Disasm68

/-- Addresses that every bus reaches are the same for all processors. -/
theorem Cpu.and_addressMask_of_lt {address : Long} (h : address.toNat < 0x400000) (cpu : Cpu) :
    address &&& cpu.addressMask = address := by
  refine BitVec.eq_of_toNat_eq ?_
  rw [toNat_and_addressMask]
  refine Nat.mod_eq_of_lt ?_
  rcases cpu.busSize_cases with hs | hs | hs <;> omega

namespace Cursor

/-- Where every bus has room for an instruction, all processors see the same words. -/
theorem agree_of_low {memory : Memory} {address : Long} (h : address.toNat + 24 ≤ 0x400000)
    (a b : Cpu) : Agree { memory, cpu := a, address } { memory, cpu := b, address } 12 := by
  have hbus (cpu : Cpu) : address &&& cpu.addressMask = address :=
    cpu.and_addressMask_of_lt (by omega)
  have hroom (cpu : Cpu) : (address &&& cpu.addressMask).toNat + 24 ≤ cpu.busSize := by
    rw [hbus]
    rcases cpu.busSize_cases with hs | hs | hs <;> omega
  apply Agree.of_words
  · intro i hi
    have hlow (cpu : Cpu) : (address + BitVec.ofNat 32 (2 * i)) &&& cpu.addressMask =
        address + BitVec.ofNat 32 (2 * i) := by
      apply cpu.and_addressMask_of_lt
      rw [BitVec.toNat_add, BitVec.toNat_ofNat]
      omega
    show memory.word ((address + _) &&& _) = memory.word ((address + _) &&& _)
    rw [hlow, hlow]
  · exact fun i hi => not_straddles_of_room (c := { memory, cpu := a, address }) (hroom a) (by omega)
  · exact fun i hi => not_straddles_of_room (c := { memory, cpu := b, address }) (hroom b) (by omega)

end Cursor

/-- Two processors that have an instruction show it alike, unless their index formats differ and one
of its index words has extended bits. -/
theorem disassemble_eq_of_isValid {memory : Memory} {address : Long} {a b : Cpu}
    (hlow : address.toNat + 24 ≤ 0x400000) (ha : a.isValid (memory.word address) = true)
    (hb : b.isValid (memory.word address) = true)
    (hindex : a.indexFormat ≠ b.indexFormat →
      ∀ w ∈ Cursor.indexWords { memory, cpu := a, address }, w.extendedBits = 0) :
    disassemble memory address b = { disassemble memory address a with cpu := b } := by
  let c : Cursor := { memory, cpu := a, address }
  let c' : Cursor := { memory, cpu := b, address }
  have hagree : c.Agree c' 12 := Cursor.agree_of_low hlow a b
  have hbus : address &&& a.addressMask = address := a.and_addressMask_of_lt (by omega)
  have hword : c.word = memory.word address := congrArg memory.word hbus
  have hword' : c'.word = c.word := hagree.word_zero
  have hfamily : b.family c.word = a.family c.word := by
    rw [hword, Cpu.family_of_isValid ha, Cpu.family_of_isValid hb]
  -- the formats agree on the words under the first cursor, and both cursors have these words
  have hformat : ((a.family c.word).decode b.indexFormat c.word).run (c.advance 1) =
      ((a.family c.word).decode a.indexFormat c.word).run (c.advance 1) := by
    by_cases hsame : a.indexFormat = b.indexFormat
    · rw [hsame]
    · symm
      apply Family.run_decode_format
      intro w hw
      rw [Cursor.advance_advance] at hw
      exact hindex hsame w hw
  have hdecode : c'.decode = c.decode := by
    have hrest : (c.advance 1).Agree (c'.advance 1) 11 := hagree.advance
    have hrun : ((b.family c'.word).decode b.indexFormat c'.word).run (c'.advance 1) =
        ((a.family c.word).decode a.indexFormat c.word).run (c.advance 1) := by
      rw [hword', hfamily, Family.run_decode_of_agree hrest, hformat]
    exact congrArg (fun r => (r.1, 1 + r.2)) hrun
  show disassemble memory address b = _
  have hshow (cpu : Cpu) : disassemble memory address cpu =
      { address, opcode := (Cursor.mk memory cpu address).word
        text := (Cursor.mk memory cpu address).decode.1.text (address + 2)
        length := 2 * (Cursor.mk memory cpu address).decode.2
        step := (cpu.family (Cursor.mk memory cpu address).word).step
        cpu } := rfl
  rw [hshow b, hshow a, hdecode, hword', hfamily]

/-- **Upward compatibility.** What a processor executes, all later ones do, but for the module calls
of the 68020; and any two processors that have the opcode of an instruction show it alike, but for
extended index words where one of them has the brief format only. -/
theorem disassemble_compatible {a b : Cpu} (hab : a.level ≤ b.level) :
    (∀ opcode, a.isValid opcode = true → (b.isValid opcode = true ↔
      ¬ ((Pattern.ofOpcode opcode).family.isModuleCall = true ∧ (b = .m68030 ∨ b = .m68040)))) ∧
    ∀ (memory : Memory) (address : Long), address.toNat + 24 ≤ 0x400000 →
      a.isValid (memory.word address) = true → b.isValid (memory.word address) = true →
      (a.indexFormat ≠ b.indexFormat → ∃ cpu, (cpu = a ∨ cpu = b) ∧
        ∀ w ∈ Cursor.indexWords { memory, cpu, address }, w.bits &&& 0x0700 = 0) →
      disassemble memory address b = { disassemble memory address a with cpu := b } := by
  refine ⟨fun opcode => Cpu.isValid_of_level_le hab, fun memory address hlow ha hb hindex => ?_⟩
  by_cases hsame : a.indexFormat = b.indexFormat
  · exact disassemble_eq_of_isValid hlow ha hb fun hne => absurd hsame hne
  · obtain ⟨cpu, rfl | rfl, hwords⟩ := hindex hsame
    · exact disassemble_eq_of_isValid hlow ha hb fun _ => hwords
    · have hba := disassemble_eq_of_isValid hlow hb ha fun _ => hwords
      rw [hba]
      rfl

/-- A move between two indexed addresses, whose index words are brief on both processors. -/
theorem disassemble_compatible_indexed :
    let memory : Memory := ⟨fun a =>
      if a = 0x1000 then 0x35b0 else if a = 0x1002 then 0x1010 else if a = 0x1004 then 0x3820 else 0⟩
    let d := disassemble memory 0x1000 .m68000
    d.text = "move.w  ($10,A0,D1.w), ($20,A2,D3.l)" ∧ Cpu.m68020.isValid 0x35b0 = true ∧
      disassemble memory 0x1000 .m68020 = { d with cpu := .m68020 } := by
  intro memory d
  obtain ⟨hvalid, hshow⟩ := disassemble_compatible (a := .m68000) (b := .m68020) (by decide)
  have hb : Cpu.m68020.isValid 0x35b0 = true :=
    (hvalid 0x35b0 (by decide +kernel)).mpr (by decide +kernel)
  refine ⟨by decide +kernel, hb, ?_⟩
  exact hshow memory 0x1000 (by decide) (by decide +kernel) hb
    fun _ => ⟨.m68000, .inl rfl, by decide +kernel⟩

end Disasm68
