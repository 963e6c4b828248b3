import Disasm68.Disassembly
import Disasm68.Proofs.Family.Shows
import Disasm68.Proofs.Family.Words

/-!
# What a disassembly depends on

A disassembly depends on the words that are fetched for it and on nothing else
(`disassemble_congr`). Where the bus has room for the longest instruction, these are the words of
the instruction itself, with one exception: the long branch of a coprocessor is fetched one word
further than it reaches (`disassemble_eq_iff_of_room`).
-/

namespace Disasm68

open Reader

namespace Cursor

/-- The reader for what follows the opcode under a cursor. -/
def operands (c : Cursor) : Reader Instruction :=
  (c.cpu.family c.word).decode c.cpu.indexFormat c.word

/-- The addresses of the words that are fetched for the instruction under a cursor. -/
def fetches (c : Cursor) : List Long :=
  c.busAddress :: c.operands.fetches (c.advance 1)

/-- Over another memory with the same opcode, the text and the length are what the same reader makes
of the other words. -/
theorem disassemble_over (c : Cursor) {other : Memory} (h : other.word c.busAddress = c.word) :
    disassemble other c.address c.cpu =
      { disassemble c.memory c.address c.cpu with
        text := (c.operands.run ((c.advance 1).withMemory other)).1.text (c.advance 1).address
        length := 2 * (1 + (c.operands.run ((c.advance 1).withMemory other)).2) } := by
  have hword : (c.withMemory other).word = c.word := h
  simp only [disassemble, decode, operands, ← hword]
  rfl

/-- Where the bus has room for the longest instruction, only words of the instruction are fetched,
unless it looks ahead. -/
theorem mem_fetches_of_room {c : Cursor} (hroom : c.busAddress.toNat + 24 ≤ c.cpu.busSize)
    (h : c.cpu.family c.word ≠ .coprocessor (.branch .long)) {a : Long} (ha : a ∈ c.fetches) :
    ∃ i < c.decode.2, a = (c.advance i).busAddress := by
  have hle := ((c.cpu.family c.word).decode_words_le c.cpu.indexFormat c.word).run (c.advance 1)
  rcases List.mem_cons.mp ha with rfl | ha
  · exact ⟨0, by simp only [decode]; omega, by rw [advance_zero]⟩
  · have hin : ∀ i < (c.operands.run (c.advance 1)).2, ¬ ((c.advance 1).advance i).Straddles := by
      intro i hi
      rw [advance_advance]
      exact not_straddles_of_room hroom (by simp only [operands] at hi; omega)
    have hshows : c.operands.Shows (Instruction.text · 0) := Family.decode_shows h
    obtain ⟨i, hi, rfl⟩ := hshows.mem_fetches hin ha
    exact ⟨1 + i, Nat.add_lt_add_left hi 1, by rw [advance_advance]⟩

/-- How a long branch of a coprocessor is read. -/
theorem operands_of_longBranch {c : Cursor}
    (h : c.cpu.family c.word = .coprocessor (.branch .long)) :
    c.operands = .word fun extension => .peek fun ahead => .word fun displacement =>
      .done (CoprocessorOperation.longBranch c.word extension displacement ahead) := by
  simp only [operands, h, Family.decode, CoprocessorOperation.decode_longBranch]

/-- It consumes two words behind the opcode, and the long it looks at starts with the second. -/
theorem run_of_longBranch {c : Cursor} (h : c.cpu.family c.word = .coprocessor (.branch .long))
    (m : Memory) :
    c.operands.run ((c.advance 1).withMemory m) =
      (CoprocessorOperation.longBranch c.word (m.word (c.advance 1).busAddress)
        (m.word (c.advance 2).busAddress) (m.long (c.advance 2).busAddress), 2) := by
  rw [operands_of_longBranch h]
  simp only [Reader.run, withMemory_word, withMemory_long, withMemory_advance, advance_advance]

theorem text_of_longBranch {c : Cursor} (h : c.cpu.family c.word = .coprocessor (.branch .long))
    {m : Memory} (hopcode : m.word c.busAddress = c.word) :
    (disassemble m c.address c.cpu).text =
      (CoprocessorOperation.longBranch c.word (m.word (c.advance 1).busAddress)
        (m.word (c.advance 2).busAddress) (m.long (c.advance 2).busAddress)).text
          (c.advance 1).address := by
  rw [c.disassemble_over hopcode, run_of_longBranch h]

/-- Besides its three words only the second word of that long is fetched for it. -/
theorem forall_mem_fetches_of_longBranch {c : Cursor}
    (h : c.cpu.family c.word = .coprocessor (.branch .long)) {p : Long → Prop}
    (hwords : ∀ i < 3, p (c.advance i).busAddress) (hahead : p ((c.advance 2).busAddress + 2)) :
    ∀ a ∈ c.fetches, p a := by
  have hopcode : p c.busAddress := by
    simpa only [advance_zero] using hwords 0 (by decide)
  have hextension := hwords 1 (by decide)
  have hdisplacement := hwords 2 (by decide)
  rw [fetches, operands_of_longBranch h]
  simp only [Reader.fetches, advance_advance, List.forall_mem_cons]
  exact ⟨hopcode, hextension, hdisplacement, hahead, hdisplacement, List.forall_mem_nil _⟩

end Cursor

/-- **Memories that agree on what is fetched give the same disassembly.** -/
theorem disassemble_congr {memory other : Memory} {address : Long} {cpu : Cpu}
    (h : ∀ a ∈ Cursor.fetches { memory, cpu, address }, other.word a = memory.word a) :
    disassemble other address cpu = disassemble memory address cpu := by
  let c : Cursor := { memory, cpu, address }
  rw [Cursor.fetches, List.forall_mem_cons] at h
  obtain ⟨hopcode, hrest⟩ := h
  have hrun : c.operands.run ((c.advance 1).withMemory other) = c.operands.run (c.advance 1) :=
    run_over hrest
  rw [c.disassemble_over hopcode, hrun]
  rfl

/-- **The branch that looks ahead.** Between memories that agree on the three words of a long branch
of a coprocessor, the text is decided by the word behind them. -/
theorem Cursor.text_eq_iff_of_longBranch {c : Cursor} {other : Memory}
    (h : c.cpu.family c.word = .coprocessor (.branch .long))
    (hwords : ∀ i < 3,
      other.word (c.advance i).busAddress = c.memory.word (c.advance i).busAddress) :
    (disassemble other c.address c.cpu).text = (disassemble c.memory c.address c.cpu).text ↔
      other.word ((c.advance 2).busAddress + 2) = c.memory.word ((c.advance 2).busAddress + 2) := by
  have hopcode : other.word c.busAddress = c.memory.word c.busAddress := by
    simpa only [advance_zero] using hwords 0 (by decide)
  rw [text_of_longBranch h hopcode, text_of_longBranch h rfl, hwords 1 (by decide),
    hwords 2 (by decide), CoprocessorOperation.longBranch_text_inj]
  constructor
  · intro hlong
    rw [← Memory.setWidth_long, hlong, Memory.setWidth_long]
  · exact Memory.long_congr (hwords 2 (by decide))

/-- With the text the whole disassembly is decided, since nothing else is fetched. -/
theorem disassemble_eq_iff_of_longBranch {c : Cursor} {other : Memory}
    (h : c.cpu.family c.word = .coprocessor (.branch .long))
    (hwords : ∀ i < 3,
      other.word (c.advance i).busAddress = c.memory.word (c.advance i).busAddress) :
    disassemble other c.address c.cpu = disassemble c.memory c.address c.cpu ↔
      other.word ((c.advance 2).busAddress + 2) = c.memory.word ((c.advance 2).busAddress + 2) := by
  refine ⟨fun heq => ?_, fun hahead => ?_⟩
  · exact (Cursor.text_eq_iff_of_longBranch h hwords).mp (congrArg Disassembly.text heq)
  · exact disassemble_congr (Cursor.forall_mem_fetches_of_longBranch h hwords hahead)

/-- **Locality.** Where the bus has room for the longest instruction, memories that agree on the
words of an instruction give the same disassembly, exactly if they also agree on the word behind a
long branch of a coprocessor, should it be one. -/
theorem disassemble_eq_iff_of_room {memory other : Memory} {address : Long} {cpu : Cpu}
    (hroom : (address &&& cpu.addressMask).toNat + 24 ≤ cpu.addressMask.toNat + 1)
    (hwords : ∀ i < (disassemble memory address cpu).length / 2,
      other.word ((disassemble memory address cpu).wordAddress i) =
        memory.word ((disassemble memory address cpu).wordAddress i)) :
    disassemble other address cpu = disassemble memory address cpu ↔
      (cpu.family (memory.word (address &&& cpu.addressMask)) = .coprocessor (.branch .long) →
        other.word ((disassemble memory address cpu).wordAddress 3) =
          memory.word ((disassemble memory address cpu).wordAddress 3)) := by
  let c : Cursor := { memory, cpu, address }
  have hbus : c.busAddress.toNat + 24 ≤ c.cpu.busSize := hroom
  have hcount : (disassemble memory address cpu).length / 2 = c.decode.2 :=
    Nat.mul_div_cancel_left _ (by decide)
  rw [hcount] at hwords
  by_cases h : c.cpu.family c.word = .coprocessor (.branch .long)
  · have hdecode : c.decode.2 = 3 := by
      have hrun := Cursor.run_of_longBranch h memory
      exact congrArg (fun r => 1 + r.2) hrun
    rw [hdecode] at hwords
    -- the bus goes on behind the branch, so the word looked at is the next one
    have hnext : (c.advance 2).busAddress + 2 = (c.advance 3).busAddress := by
      have hin : ¬ (c.advance 2).Straddles := Cursor.not_straddles_of_room hbus (by decide)
      rw [Cursor.busAddress_add_two hin, Cursor.advance_advance]
    have hiff := disassemble_eq_iff_of_longBranch h hwords
    rw [hnext] at hiff
    exact hiff.trans ⟨fun hahead _ => hahead, fun hahead => hahead h⟩
  · refine ⟨fun _ hfamily => absurd hfamily h, fun _ => disassemble_congr fun a ha => ?_⟩
    obtain ⟨i, hi, rfl⟩ := Cursor.mem_fetches_of_room hbus h ha
    exact hwords i hi

/-- The word after the one that is looked at makes no difference to a long branch. -/
theorem disassemble_longBranch_eq :
    let memory : Memory := ⟨fun a => if a = 0 then 0xf2c1 else 0⟩
    let other : Memory := ⟨fun a => if a = 0 then 0xf2c1 else if a = 8 then 1 else 0⟩
    disassemble other 0 .m68020 = disassemble memory 0 .m68020 :=
  (disassemble_eq_iff_of_room (by decide) (by decide +kernel)).mpr fun _ => by decide +kernel

/-- Two memories that hold the same long branch of a coprocessor, with another text for each. -/
theorem disassemble_longBranch_ne :
    let memory : Memory := ⟨fun a => if a = 0 then 0xf2c1 else 0⟩
    let other : Memory := ⟨fun a => if a = 0 then 0xf2c1 else if a = 6 then 1 else 0⟩
    let d := disassemble memory 0 .m68020
    (0 &&& Cpu.m68020.addressMask).toNat + 24 ≤ Cpu.m68020.addressMask.toNat + 1 ∧
      (∀ i < d.length / 2, other.word (d.wordAddress i) = memory.word (d.wordAddress i)) ∧
      disassemble other 0 .m68020 ≠ d := by
  decide +kernel

end Disasm68
