import Disasm68.Listing.Columns
import Disasm68.Proofs.Disassembly.Locality

/-!
# The end of the address bus

A cursor that passes the end of the bus goes on at its beginning, but a long that straddles the end
takes its second word from outside. Over memories that agree on the bus this changes nothing but the
text (`disassemble_of_bus`), and it changes the text exactly where something is fetched from
outside: at one of the two addresses behind the last one.
-/

namespace Disasm68

open Reader

namespace Memory

/-- The memory with the lowest bit of every word behind an address changed. -/
def flippedBehind (m : Memory) (last : Long) : Memory where
  word a := if a ≤ last then m.word a else m.word a ^^^ 1

theorem flippedBehind_of_le {m : Memory} {last a : Long} (h : a ≤ last) :
    (m.flippedBehind last).word a = m.word a :=
  if_pos h

theorem flippedBehind_of_lt {m : Memory} {last a : Long} (h : last < a) :
    ((m.flippedBehind last).word a).getLsbD 0 ≠ (m.word a).getLsbD 0 := by
  have hword : (m.flippedBehind last).word a = m.word a ^^^ 1 := if_neg (BitVec.not_le.mpr h)
  simp [hword]

end Memory

namespace Cursor

/-- **Fetches from outside the bus.** Over memories that agree on the bus an instruction has the
same number of words. Either all of them are fetched from the bus, or the texts differ as soon as
the memories differ in the lowest bit of every word outside. -/
theorem decode_over_bus {c : Cursor} {other : Memory}
    (hbus : ∀ a ≤ c.cpu.addressMask, other.word a = c.memory.word a) :
    (c.operands.run ((c.advance 1).withMemory other)).2 = (c.operands.run (c.advance 1)).2 ∧
      ((∀ a ∈ c.fetches, a ≤ c.cpu.addressMask) ∨
        ((∀ a, c.cpu.addressMask < a →
            (other.word a).getLsbD 0 ≠ (c.memory.word a).getLsbD 0) →
          (disassemble other c.address c.cpu).text ≠
            (disassemble c.memory c.address c.cpu).text)) := by
  have hopcode : other.word c.busAddress = c.word := hbus _ c.busAddress_le
  by_cases h : c.cpu.family c.word = .coprocessor (.branch .long)
  · have hwords (i : Nat) (_ : i < 3) :
        other.word (c.advance i).busAddress = c.memory.word (c.advance i).busAddress :=
      hbus _ (c.advance i).busAddress_le
    have hcount (m : Memory) : (c.operands.run ((c.advance 1).withMemory m)).2 = 2 := by
      rw [run_of_longBranch h]
    refine ⟨(hcount other).trans (hcount c.memory).symm, ?_⟩
    by_cases hlast : (c.advance 2).busAddress + 2 ≤ c.cpu.addressMask
    · left
      exact forall_mem_fetches_of_longBranch h (fun i _ => (c.advance i).busAddress_le) hlast
    · right
      intro hout htext
      have hword := (text_eq_iff_of_longBranch h hwords).mp htext
      exact hout _ (BitVec.not_le.mp hlast) (by rw [hword])
  · have hshows : c.operands.Shows (Instruction.text · (c.advance 1).address) :=
      Family.decode_shows h
    have hwords : c.operands.Ensures fun _ n => n ≤ 10 := Family.decode_words_le ..
    obtain ⟨hcount, hview⟩ := hshows.run_over (c := c.advance 1) hwords (by decide) hbus
    refine ⟨hcount, hview.imp (fun hon => ?_) fun hoff hout => ?_⟩
    · exact List.forall_mem_cons.mpr ⟨c.busAddress_le, hon⟩
    · rw [c.disassemble_over hopcode]
      exact hoff hout

end Cursor

/-- Nothing is fetched further than two bytes behind the last address of the bus. -/
theorem Cursor.fetches_toNat_le {c : Cursor} {a : Long} (ha : a ∈ c.fetches) :
    a.toNat ≤ c.cpu.addressMask.toNat + 2 := by
  have hreach (d : Cursor) (hd : d.cpu = c.cpu) :
      d.busAddress.toNat ≤ c.cpu.addressMask.toNat + 2 ∧
        (d.busAddress + 2).toNat ≤ c.cpu.addressMask.toNat + 2 := by
    have hbus := BitVec.le_def.mp d.busAddress_le
    have hmod := Nat.mod_le (d.busAddress.toNat + 2) 0x100000000
    rw [hd] at hbus
    rw [toNat_add_two]
    omega
  rcases List.mem_cons.mp ha with rfl | ha
  · exact (hreach c rfl).1
  · exact c.operands.forall_mem_fetches (p := fun a => a.toNat ≤ c.cpu.addressMask.toNat + 2)
      (c := c.advance 1) hreach a ha

/-- The words of an instruction are read back from the bus. -/
theorem Disassembly.hexColumn_congr {d d' : Disassembly} {memory other : Memory}
    (h : ∀ a ≤ d.cpu.addressMask, other.word a = memory.word a) (haddress : d'.address = d.address)
    (hlength : d'.length = d.length) (hcpu : d'.cpu = d.cpu) :
    d'.hexColumn other = d.hexColumn memory := by
  have haddr (i : Nat) : d'.wordAddress i = d.wordAddress i := by
    rw [wordAddress, wordAddress, haddress, hcpu]
  have hle (i : Nat) : d.wordAddress i ≤ d.cpu.addressMask :=
    (Cursor.mk memory d.cpu (d.address + BitVec.ofNat 32 (2 * i))).busAddress_le
  have hword (i : Nat) : other.word (d'.wordAddress i) = memory.word (d.wordAddress i) := by
    rw [haddr, h _ (hle i)]
  simp only [hexColumn, words, hlength, hword]

/-- **The end of the bus.** Over memories that agree on the bus the opcode, the length, the stepping
hint and the hexadecimal column of an instruction are the same. The text is the same over all of
them exactly if everything is fetched from the bus. -/
theorem disassemble_of_bus (memory : Memory) (address : Long) (cpu : Cpu) :
    let d := disassemble memory address cpu
    let fetched := Cursor.fetches { memory, cpu, address }
    (∀ other : Memory, (∀ a ≤ cpu.addressMask, other.word a = memory.word a) →
      let d' := disassemble other address cpu
      d' = { d with text := d'.text } ∧ d'.hexColumn other = d.hexColumn memory) ∧
    ((∀ other : Memory, (∀ a ≤ cpu.addressMask, other.word a = memory.word a) →
      disassemble other address cpu = d) ↔ ∀ a ∈ fetched, a ≤ cpu.addressMask) ∧
    ∀ a ∈ fetched, a.toNat ≤ cpu.addressMask.toNat + 2 := by
  intro d fetched
  let c : Cursor := { memory, cpu, address }
  have hsame (other : Memory) (hbus : ∀ a ≤ cpu.addressMask, other.word a = memory.word a) :
      disassemble other address cpu = { d with text := (disassemble other address cpu).text } := by
    obtain ⟨hcount, -⟩ := Cursor.decode_over_bus (c := c) hbus
    have hover := c.disassemble_over (hbus _ c.busAddress_le)
    have hlength : 2 * (1 + (c.operands.run (c.advance 1)).2) = d.length := rfl
    rw [hcount, hlength] at hover
    have htext := congrArg Disassembly.text hover
    exact hover.trans (by rw [htext])
  refine ⟨fun other hbus => ⟨hsame other hbus, ?_⟩, ⟨fun hall => ?_, fun hon other hbus => ?_⟩, ?_⟩
  · have heq := hsame other hbus
    refine Disassembly.hexColumn_congr (d := d) hbus ?_ ?_ ?_ <;> rw [heq]
  · have hflip (a : Long) (ha : a ≤ cpu.addressMask) :=
      Memory.flippedBehind_of_le (m := memory) ha
    obtain ⟨-, hon | hoff⟩ := Cursor.decode_over_bus (c := c) hflip
    · exact hon
    · refine absurd (congrArg Disassembly.text (hall _ hflip)) (hoff fun a ha => ?_)
      exact Memory.flippedBehind_of_lt ha
  · exact disassemble_congr fun a ha => hbus a (hon a ha)
  · exact fun a ha => Cursor.fetches_toNat_le ha

/-- At the top of a bus of 24 lines the second word of a long is taken from outside. -/
theorem disassemble_straddling_ne :
    let memory : Memory := ⟨fun a => if a = 0xfffffc then 0x4eb9 else 0⟩
    let other : Memory := ⟨fun a => if a = 0xfffffc then 0x4eb9 else if a = 0x1000000 then 1 else 0⟩
    (∀ a ≤ Cpu.m68000.addressMask, other.word a = memory.word a) ∧
      disassemble other 0xfffffc .m68000 ≠ disassemble memory 0xfffffc .m68000 := by
  intro memory other
  refine ⟨fun a ha => ?_, by decide +kernel⟩
  have hne : a ≠ 0x1000000 := by
    rintro rfl
    revert ha
    decide
  simp only [memory, other, if_neg hne]

end Disasm68
