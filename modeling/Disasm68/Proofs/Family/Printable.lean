import Disasm68.Proofs.Family.Letters
import Disasm68.Proofs.Operand.Printable

/-!
# Instructions are printable

Mnemonics, operands and notes consist of printable characters, and so does the text of whatever is
disassembled (`disassemble_printable`).
-/

namespace Disasm68

open Text

@[simp] theorem Tag.printable_text (tag : Tag) : Printable tag.text := by
  cases tag <;> decide

@[simp] theorem Note.printable_text (origin : Long) (note : Note) : Printable (note.text origin) := by
  cases note with
  | empty | illegal | lineA | lineF | tag => simp +decide [Note.text]
  | coprocessor distance extension => cases distance <;> simp +decide [Note.text]

namespace Instruction

/-- The text of an instruction is as printable as its mnemonic. -/
theorem printable_text {i : Instruction} (h : Printable i.mnemonic) (origin : Long) :
    Printable (i.text origin) := by
  have hoperands : Printable (", ".intercalate (i.operands.map (Operand.text origin))) := by
    refine printable_intercalate (by decide) ?_
    intro s hs
    obtain ⟨operand, -, rfl⟩ := List.mem_map.mp hs
    exact operand.printable_text origin
  have hleft : Printable (Column.left i.width i.mnemonic) := printable_left h
  rw [text, printable_append]
  refine ⟨?_, i.note.printable_text origin⟩
  unfold body
  dsimp only
  split
  · exact hleft
  · simp only [printable_append]
    exact ⟨⟨hleft, by decide⟩, hoperands⟩

end Instruction

/-- The letters of mnemonics are printable. -/
theorem Mnemonic.isPrintable_of_isLetter {c : Char} (h : isLetter c = true) :
    isPrintable c = true := by
  simp only [isLetter, Bool.or_eq_true, decide_eq_true_eq] at h
  rcases h with ((hlower | hdigit) | rfl) | rfl
  · refine isPrintable_of_isAlphanum ?_
    show ((c.isUpper || c.isLower) || c.isDigit) = true
    rw [hlower, Bool.or_true, Bool.true_or]
  · refine isPrintable_of_isAlphanum ?_
    show (c.isAlpha || c.isDigit) = true
    rw [hdigit, Bool.or_true]
  · decide
  · decide

/-- **Every instruction is printable.** -/
theorem disassemble_printable (memory : Memory) (address : Long) (cpu : Cpu) :
    Printable (disassemble memory address cpu).text := by
  let c : Cursor := { memory, cpu, address }
  have hmnemonic : Printable c.decode.1.mnemonic :=
    (c.spelled_mnemonic.mono fun _ => Mnemonic.isPrintable_of_isLetter).written
  exact Instruction.printable_text hmnemonic _

end Disasm68
