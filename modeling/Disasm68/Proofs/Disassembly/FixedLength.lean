import Disasm68.Disassembly
import Disasm68.Proofs.Family.BriefWords

/-!
# Lengths before the 68020

Before the 68020 an instruction is as long as its opcode says (`disassemble_length_of_opcode`).
Index words are looked at and may be refused, but they never have words of their own, and the
families that could read on after what they found belong to later processors.
-/

namespace Disasm68

/-- On a processor with brief index words the opcode decides how many words an instruction takes. -/
theorem Cursor.decode_brief_words {c : Cursor} (h : c.cpu.indexFormat = .brief) :
    c.decode.2 = 1 + (c.cpu.family c.word).briefWords c.word := by
  have hwords := ((c.cpu.family c.word).decode_brief_words c.word).run (c.advance 1)
  rw [← h] at hwords
  exact congrArg (1 + ·) hwords

/-- **Before the 68020 the opcode fixes the length.** Two instructions with the same opcode take the
same number of bytes and have the same stepping hint, wherever they stand and whatever follows. None
takes more than ten bytes. -/
theorem disassemble_length_of_opcode {cpu : Cpu}
    (hcpu : cpu = .m68000 ∨ cpu = .m68008 ∨ cpu = .m68010) {memory memory' : Memory}
    {address address' : Long}
    (hopcode : memory'.word (address' &&& cpu.addressMask) =
      memory.word (address &&& cpu.addressMask)) :
    let d := disassemble memory address cpu
    let d' := disassemble memory' address' cpu
    d'.length = d.length ∧ d'.step = d.step ∧ d.length ≤ 10 := by
  intro d d'
  let c : Cursor := { memory, cpu, address }
  let c' : Cursor := { memory := memory', cpu, address := address' }
  have hformat : cpu.indexFormat = .brief := by
    rcases hcpu with rfl | rfl | rfl <;> rfl
  have hword : c'.word = c.word := hopcode
  have hwords : c.decode.2 = 1 + (cpu.family c.word).briefWords c.word :=
    Cursor.decode_brief_words hformat
  have hwords' : c'.decode.2 = 1 + (cpu.family c'.word).briefWords c'.word :=
    Cursor.decode_brief_words hformat
  refine ⟨?_, congrArg (fun w => (cpu.family w).step) hword, ?_⟩
  · show 2 * c'.decode.2 = 2 * c.decode.2
    rw [hwords, hwords', hword]
  · have hle := (cpu.family c.word).briefWords_le c.word
    show 2 * c.decode.2 ≤ 10
    omega

/-- A load through an index word that is refused, and one through a word that the 68020 reads as a
full one with two long displacements. -/
theorem disassemble_length_of_opcode_indexed :
    let memory : Memory := ⟨fun a => if a = 0x1000 then 0x2030 else if a = 0x1002 then 0x0200 else 0⟩
    let memory' : Memory := ⟨fun a => if a = 0x2001 then 0x2030 else if a = 0x2003 then 0x0133 else 0⟩
    let d := disassemble memory 0x1000 .m68008
    let d' := disassemble memory' 0x2001 .m68008
    (d.text = "move.l  <invalid mode>, D0" ∧ d'.text = "move.l  ($33,A0,D0.w), D0" ∧
        (disassemble memory' 0x2001 .m68020).length = 12) ∧
      d'.length = d.length ∧ d'.step = d.step ∧ d.length ≤ 10 := by
  intro memory memory' d d'
  refine ⟨by decide +kernel, ?_⟩
  exact disassemble_length_of_opcode (.inr (.inl rfl)) (by decide +kernel)

end Disasm68
