import Disasm68.Proofs.Family.Tags
import Disasm68.Proofs.Opcode.Availability

/-!
# Tags and availability

Which processors have an instruction is written down twice: in the opcode table, and in the text of
the instruction as a tag. The two agree on whether there is anything to write down: an instruction is
tagged exactly if its pattern is not available on every processor (`disassemble_tagged_iff`). Words
that start no instruction are not tagged.
-/

namespace Disasm68

/-- **The families that are tagged are those that some processor lacks.** -/
theorem OpcodeTable.isTagged_patterns : ∀ p ∈ patterns,
    p.family.isTagged = decide (p.availability ≠ .always) := by
  decide +kernel

/-- An opcode that the table does not know has the availability of a pattern for all processors. -/
theorem Pattern.isTagged_ofOpcode (opcode : Word) :
    (ofOpcode opcode).family.isTagged = true ↔ (ofOpcode opcode).availability ≠ .always := by
  rcases ofOpcode_cases opcode with hillegal | ⟨hmem, -⟩
  · rw [hillegal]
    decide
  · rw [OpcodeTable.isTagged_patterns _ hmem, decide_eq_true_eq]

/-- The tags and their texts. -/
theorem Tag.exists_text_iff {p : String → Prop} :
    (∃ tag : Tag, p tag.text) ↔
      ∃ s ∈ ["(1+)", "(2+)", "(2)", "(2,3)", "(2-3)", "(4)", "(4+)", "(?)"], p s := by
  constructor
  · rintro ⟨tag, htag⟩
    exact ⟨tag.text, by cases tag <;> decide, htag⟩
  · rintro ⟨s, hs, hp⟩
    have htext : ∃ tag : Tag, tag.text = s := by
      simp only [List.mem_cons, List.not_mem_nil, or_false] at hs
      rcases hs with rfl | rfl | rfl | rfl | rfl | rfl | rfl | rfl
      · exact ⟨.since010, rfl⟩
      · exact ⟨.since020, rfl⟩
      · exact ⟨.only020, rfl⟩
      · exact ⟨.only020and030, rfl⟩
      · exact ⟨.coprocessor, rfl⟩
      · exact ⟨.only040, rfl⟩
      · exact ⟨.since040, rfl⟩
      · exact ⟨.unknown, rfl⟩
    obtain ⟨tag, rfl⟩ := htext
    exact ⟨tag, hp⟩

/-- **Tags mark the instructions that not every processor has.** Whatever is in memory and whichever
the processor is, the text ends with a tag exactly if the opcode starts an instruction of the
processor and its pattern is not available on all of them. -/
theorem disassemble_tagged_iff (memory : Memory) (address : Long) (cpu : Cpu) :
    let opcode := memory.word (address &&& cpu.addressMask)
    (∃ tag ∈ ["(1+)", "(2+)", "(2)", "(2,3)", "(2-3)", "(4)", "(4+)", "(?)"],
        tag.toList <:+ (disassemble memory address cpu).text.toList) ↔
      cpu.isValid opcode = true ∧ (Pattern.ofOpcode opcode).availability ≠ .always := by
  intro opcode
  let c : Cursor := { memory, cpu, address }
  have htext : (∃ tag : Tag, tag.text.toList <:+ (disassemble memory address cpu).text.toList) ↔
      c.decode.1.note.isTag = true :=
    Instruction.tagged_iff c.spelled_mnemonic.written _
  have hnote : c.decode.1.note.isTag = (cpu.family opcode).isTagged :=
    ((cpu.family opcode).decode_isTag).run (c.advance 1)
  rw [← Tag.exists_text_iff (p := fun s => s.toList <:+ _), htext, hnote]
  cases hvalid : cpu.isValid opcode with
  | true =>
    rw [Cpu.family_of_isValid hvalid, Pattern.isTagged_ofOpcode]
    simp
  | false =>
    have hillegal : cpu.family opcode = .illegal := by simpa [Cpu.isValid] using hvalid
    rw [hillegal]
    simp [Family.isTagged]

end Disasm68
