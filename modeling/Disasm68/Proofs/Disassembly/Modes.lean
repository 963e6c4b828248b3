import Disasm68.Proofs.Disassembly.Body

/-!
# No instruction has an undefined mode

Three fields of six bits select no addressing mode, and an address that is decoded from one of them
is shown as `INVALID`. No instruction has such an address (`disassemble_modes`): the opcode table
lets no opcode with an undefined field through to an instruction that reads it. This concerns the
field at the end of the opcode as well as the destination field of a move.
-/

namespace Disasm68

open Text

/-- There is no capital `N` in a note. -/
theorem Note.not_mem_text (note : Note) (origin : Long) : 'N' ∉ (note.text origin).toList := by
  have hlower (n : Nat) : 'N' ∉ (Hex.lower n).toList := by
    have hall : ∀ d ∈ (Hex.lower n).toList, d ≠ 'N' := by
      rw [Hex.lower, String.toList_ofList]
      exact forall_mem_toDigits (by decide) (by decide) n
    exact fun hmem => hall 'N' hmem rfl
  cases note with
  | tag t => cases t <;> simp [text, Tag.text]
  | coprocessor distance extension => cases distance <;> simp [text, hlower, Tag.text]
  | empty | illegal | lineA | lineF => simp [text]

/-- **No instruction has an undefined mode.** Whatever is in memory and whichever the processor is,
all fields from which an instruction reads an address select a mode. So all the addresses among its
operands have one, as an address does exactly if its field selects one
(`EffectiveAddress.run_decode_defined_iff`), and nowhere in its text an undefined mode is
reported. -/
theorem disassemble_modes (memory : Memory) (address : Long) (cpu : Cpu) :
    let c : Cursor := { memory, cpu, address }
    (∀ a ∈ (cpu.family c.word).addresses c.word, ∃ mode, AddressMode.ofField? a.1 = some mode) ∧
      (∀ o ∈ c.decode.1.operands, o.Defined) ∧
      ¬ "INVALID".toList <:+: (disassemble memory address cpu).text.toList := by
  intro c
  refine ⟨fun a ha => cpu.exists_mode_of_mem_addresses c.word ha, c.decode_operands.1, ?_⟩
  intro hinfix
  have hmem : 'N' ∈ (c.decode.1.text (c.advance 1).address).toList :=
    hinfix.subset (by decide)
  rw [Instruction.text, String.toList_append, List.mem_append] at hmem
  rcases hmem with hbody | hnote
  · exact absurd (c.written_body _ 'N' hbody) (by decide)
  · exact Note.not_mem_text _ _ hnote

end Disasm68
