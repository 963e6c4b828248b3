import Disasm68.Proofs.Disassembly.Agreement
import Disasm68.Proofs.Family.Target

/-!
# Relocation

The same words at another place are the same instruction (`disassemble_relocate`). Its opcode,
length and stepping hint do not change, and neither does its text, unless the family is relative:
then the text changes in the printed target only, which moves as far as the instruction does.
-/

namespace Disasm68

namespace Cursor

/-- Where both buses have room for the longest instruction, cursors agree if they have the same
words at the same distances. -/
theorem agree_of_room {c c' : Cursor} (hroom : c.busAddress.toNat + 24 ≤ c.cpu.busSize)
    (hroom' : c'.busAddress.toNat + 24 ≤ c'.cpu.busSize)
    (hwords : ∀ i < 12, c'.memory.word (c'.busAddress + BitVec.ofNat 32 (2 * i)) =
      c.memory.word (c.busAddress + BitVec.ofNat 32 (2 * i))) : c.Agree c' 12 := by
  apply Agree.of_words
  · intro i hi
    have hbus := busAddress_advance_of_room (c := c) (n := i) (by omega)
    have hbus' := busAddress_advance_of_room (c := c') (n := i) (by omega)
    show c'.memory.word (c'.advance i).busAddress = c.memory.word (c.advance i).busAddress
    rw [hbus, hbus', hwords i hi]
  · exact fun i hi => not_straddles_of_room hroom (by omega)
  · exact fun i hi => not_straddles_of_room hroom' (by omega)

end Cursor

/-- **Relocation.** Two places that hold the same words hold instructions with the same opcode,
length and stepping hint. Their texts are the same, unless the family is relative; then they differ
in the target alone, by as much as the places do. -/
theorem disassemble_relocate {memory memory' : Memory} {address address' : Long} {cpu : Cpu}
    (hroom : (address &&& cpu.addressMask).toNat + 24 ≤ cpu.addressMask.toNat + 1)
    (hroom' : (address' &&& cpu.addressMask).toNat + 24 ≤ cpu.addressMask.toNat + 1)
    (hwords : ∀ i < 12,
      memory'.word ((address' &&& cpu.addressMask) + BitVec.ofNat 32 (2 * i)) =
        memory.word ((address &&& cpu.addressMask) + BitVec.ofNat 32 (2 * i))) :
    let d := disassemble memory address cpu
    let d' := disassemble memory' address' cpu
    (d'.opcode = d.opcode ∧ d'.length = d.length ∧ d'.step = d.step) ∧
      ((cpu.family d.opcode).isRelative = false → d'.text = d.text) ∧
      ((cpu.family d.opcode).isRelative = true → ∃ before after target,
        d.text = before ++ Hex.lower target.toNat ++ after ∧
          d'.text = before ++ Hex.lower (target + (address' - address)).toNat ++ after) := by
  intro d d'
  let c : Cursor := { memory, cpu, address }
  let c' : Cursor := { memory := memory', cpu, address := address' }
  have hagree : c.Agree c' 12 := Cursor.agree_of_room hroom hroom' hwords
  have hopcode : c'.word = c.word := hagree.word_zero
  have hdecode : c'.decode = c.decode := Cursor.decode_eq_of_agree rfl hagree
  have htext : d.text = c.decode.1.text (c.advance 1).address := rfl
  have htext' : d'.text = c.decode.1.text (c'.advance 1).address := by
    rw [← hdecode]
    rfl
  refine ⟨⟨hopcode, ?_, ?_⟩, fun hfixed => ?_, fun hrelative => ?_⟩
  · exact congrArg (fun i => 2 * i.2) hdecode
  · exact congrArg (fun w => (cpu.family w).step) hopcode
  · have hi := (Family.decode_fixed cpu.indexFormat c.word hfixed).run (c.advance 1)
    rw [htext, htext']
    exact hi _ _
  · have hi := (Family.decode_relative cpu.indexFormat c.word hrelative).run (c.advance 1)
    obtain ⟨before, after, distance, hi⟩ := hi
    refine ⟨before, after, address + 2 + distance, htext.trans (hi _), ?_⟩
    have htarget : address + 2 + distance + (address' - address) = address' + 2 + distance := by
      grind
    rw [htarget]
    exact htext'.trans (hi _)

/-- A branch that is moved so far that its target wraps. -/
theorem disassemble_relocate_wrapping :
    let memory : Memory := ⟨fun a => if a = 0x1000 then 0x6600 else if a = 0x1002 then 0x7ffe else 0⟩
    let memory' : Memory :=
      ⟨fun a => if a = 0xffffff00 then 0x6600 else if a = 0xffffff02 then 0x7ffe else 0⟩
    let d := disassemble memory 0x1000 .m68020
    let d' := disassemble memory' 0xffffff00 .m68020
    (d.text = "bne     9000" ∧ d'.text = "bne     7f00") ∧
      ∃ (before after : String) (target : Long),
        d.text = before ++ Hex.lower target.toNat ++ after ∧
          d'.text = before ++ Hex.lower (target + (0xffffff00 - 0x1000)).toNat ++ after := by
  intro memory memory' d d'
  refine ⟨by decide +kernel, ?_⟩
  exact (disassemble_relocate (by decide) (by decide) (by decide +kernel)).2.2 (by decide +kernel)

end Disasm68
