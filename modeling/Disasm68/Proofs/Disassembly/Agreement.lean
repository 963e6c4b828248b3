import Disasm68.Proofs.Disassembly.Locality
import Disasm68.Proofs.Reader.Agree

/-!
# The same instruction at two places

Cursors that agree on the twelve words an instruction can reach have the same instruction
(`Cursor.decode_eq_of_agree`). Where they agree on fewer words, they still have instructions of the
same length, unless both instructions are longer than that (`Cursor.decode_agree`).

The long branch of a coprocessor needs a word of its own in both: it looks one word further than it
reaches, but its length does not depend on what it sees there. Its text does
(`Cursor.text_eq_iff_of_agree`).
-/

namespace Disasm68

open Reader

/-- What follows the opcode is decoded alike where the next eleven words are the same. -/
theorem Family.run_decode_of_agree {format : IndexFormat} {opcode : Word} {family : Family}
    {c c' : Cursor} (h : c.Agree c' 11) :
    (family.decode format opcode).run c' = (family.decode format opcode).run c := by
  by_cases hbranch : family = .coprocessor (.branch .long)
  · rw [hbranch]
    simp only [decode, CoprocessorOperation.decode_longBranch, run, h.word_zero,
      h.word 1 (by decide), h.long 1 (by decide)]
  · have hshows : (family.decode format opcode).Shows (Instruction.text · 0) :=
      decode_shows hbranch
    have hle := (family.decode_words_le format opcode).run c
    rcases hshows.run_agree h with ⟨-, heq⟩ | ⟨hlt, -⟩
    · exact heq
    · omega

namespace Cursor

variable {c c' : Cursor}

/-- The length of a long branch of a coprocessor. -/
theorem decode_of_longBranch (h : c.cpu.family c.word = .coprocessor (.branch .long)) :
    c.decode.2 = 3 := by
  have hrun := run_of_longBranch h c.memory
  exact congrArg (fun r => 1 + r.2) hrun

/-- An instruction that does not look ahead is decided by its own words. -/
theorem decode_agree_of_ne (hcpu : c'.cpu = c.cpu) {k : Nat} (h : c.Agree c' (k + 1))
    (hbranch : c.cpu.family c.word ≠ .coprocessor (.branch .long)) :
    c.decode.2 ≤ k + 1 ∧ c'.decode = c.decode ∨ k + 1 < c.decode.2 ∧ k + 1 < c'.decode.2 := by
  have hrest : (c.advance 1).Agree (c'.advance 1) k := by
    apply Agree.advance
    rwa [Nat.add_comm]
  have hshows : c.operands.Shows (Instruction.text · 0) := Family.decode_shows hbranch
  simp only [decode, hcpu, h.word_zero]
  rcases hshows.run_agree hrest with ⟨hle, heq⟩ | ⟨hlt, hlt'⟩
  · left
    exact ⟨by simp only [operands] at hle; omega, congrArg (fun r => (r.1, 1 + r.2)) heq⟩
  · right
    simp only [operands] at hlt hlt'
    omega

/-- **The length of an instruction is decided by its own words.** -/
theorem decode_agree (hcpu : c'.cpu = c.cpu) {k : Nat} (h : c.Agree c' (k + 1)) :
    c.decode.2 ≤ k + 1 ∧ c'.decode.2 = c.decode.2 ∨ k + 1 < c.decode.2 ∧ k + 1 < c'.decode.2 := by
  by_cases hbranch : c.cpu.family c.word = .coprocessor (.branch .long)
  · have hbranch' : c'.cpu.family c'.word = .coprocessor (.branch .long) := by
      rw [hcpu, h.word_zero, hbranch]
    rw [decode_of_longBranch hbranch, decode_of_longBranch hbranch']
    omega
  · exact (decode_agree_of_ne hcpu h hbranch).imp (And.imp_right (congrArg Prod.snd)) id

/-- The words of a long branch of a coprocessor are among the common ones if it ends there. -/
theorem words_of_longBranch {other : Memory} {k : Nat}
    (h : c.Agree (c.withMemory other) (k + 1)) (hk : c.decode.2 ≤ k + 1)
    (hbranch : c.cpu.family c.word = .coprocessor (.branch .long)) :
    ∀ i < 3, other.word (c.advance i).busAddress = c.memory.word (c.advance i).busAddress := by
  rw [decode_of_longBranch hbranch] at hk
  intro i hi
  exact h.word i (by omega)

/-- Over another memory with the same words an instruction has the same text, unless it is a long
branch of a coprocessor: then the word behind it decides. -/
theorem text_eq_iff_of_agree {other : Memory} {k : Nat} (h : c.Agree (c.withMemory other) (k + 1))
    (hk : c.decode.2 ≤ k + 1) :
    (disassemble other c.address c.cpu).text = (disassemble c.memory c.address c.cpu).text ↔
      (c.cpu.family c.word = .coprocessor (.branch .long) →
        other.word ((c.advance 2).busAddress + 2) =
          c.memory.word ((c.advance 2).busAddress + 2)) := by
  by_cases hbranch : c.cpu.family c.word = .coprocessor (.branch .long)
  · have hwords := words_of_longBranch h hk hbranch
    rw [text_eq_iff_of_longBranch hbranch hwords, forall_prop_of_true hbranch]
  · have hcpu : (c.withMemory other).cpu = c.cpu := rfl
    rcases decode_agree_of_ne hcpu h hbranch with ⟨-, heq⟩ | ⟨hlt, -⟩
    · refine iff_of_true ?_ (absurd · hbranch)
      exact congrArg (fun r => r.1.text (c.advance 1).address) heq
    · omega

/-- **The same words are the same instruction**, wherever they stand. -/
theorem decode_eq_of_agree (hcpu : c'.cpu = c.cpu) (h : c.Agree c' 12) : c'.decode = c.decode := by
  have hrest : (c.advance 1).Agree (c'.advance 1) 11 := h.advance
  simp only [decode, hcpu, h.word_zero, Family.run_decode_of_agree hrest]

end Cursor

end Disasm68
