import Disasm68.Proofs.Disassembly.Body

/-!
# Lines of assembler text

In front of its note an instruction is a line of assembler text: a mnemonic alone, or a mnemonic with
operands behind it (`Instruction.Line`). Operands are separated by a comma and a blank and are solid,
so none of them is empty or contains the separator. There is one exception. A list of no registers is
shown as nothing, so a `movem` with an empty mask begins or ends its operands with a separator
(`disassemble_line_iff`).
-/

namespace Disasm68

open Text

/-- A mnemonic alone, which may be filled up with blanks, or a mnemonic and behind it blanks and
operands. -/
inductive Instruction.Line : String → Prop where
  | mnemonic {m : String} (hm : Spelled Mnemonic.isLetter m) (blanks : Nat) :
      Line (m ++ String.ofList (List.replicate blanks ' '))
  | operands {m : String} (hm : Spelled Mnemonic.isLetter m) {blanks : Nat} (hblanks : 0 < blanks)
      {texts : List String} (hne : texts ≠ []) (htexts : ∀ s ∈ texts, Solid .separators s) :
      Line (m ++ String.ofList (List.replicate blanks ' ') ++ ", ".intercalate texts)

/-- The ends of a gap: a blank behind which something has to follow, and a comma. -/
def Text.Marks.gaps : Marks := ⟨[' '], [',']⟩

theorem Text.not_tidy_gap (s t : String) : ¬ Tidy .gaps (s ++ " " ++ (", " ++ t)) := by
  have hgap : [' ', ','] <:+: (s ++ " " ++ (", " ++ t)).toList :=
    ⟨s.toList, ' ' :: t.toList, by simp⟩
  intro htidy
  have hchain := List.IsChain.infix htidy hgap
  exact absurd hchain (by decide)

theorem Text.not_solid_gap (s : String) : ¬ Solid .gaps (s ++ ", ") := by
  intro hsolid
  exact hsolid.not_opens ' ' (by simp [List.getLast?_append]) (by decide)

namespace Instruction

/-- **In a line with a comma nothing is missing**: no comma stands behind a blank, and no blank at
the end. -/
theorem Line.solid {s : String} (h : Line s) (hcomma : ',' ∈ s.toList) : Solid .gaps s := by
  have hblanks (n : Nat) : ∀ c ∈ (String.ofList (List.replicate n ' ')).toList, c = ' ' := by
    rw [String.toList_ofList]
    exact fun c hc => List.eq_of_mem_replicate hc
  cases h with
  | @mnemonic m hm blanks =>
    rw [String.toList_append, List.mem_append] at hcomma
    rcases hcomma with hmnemonic | hblank
    · exact absurd (hm.written _ hmnemonic) (by decide)
    · exact absurd (hblanks blanks _ hblank) (by decide)
  | @operands m hm blanks _ texts hne htexts =>
    have hgap : Tidy .gaps (String.ofList (List.replicate blanks ' ')) :=
      List.Pairwise.isChain <| List.pairwise_of_forall_mem_list fun _ _ d hd hmeet =>
        absurd (hblanks blanks d hd ▸ hmeet.2) (by decide)
    have hlist : Solid .gaps (", ".intercalate texts) :=
      .intercalate (by decide) hne fun s hs => (htexts s hs).mono (by decide) (by decide)
    exact (hm.solid (by decide)).join hgap hlist

end Instruction

namespace Cursor

variable {c : Cursor}

/-- An instruction with complete operands is a line. -/
theorem line_body (h : c.decode.1.Complete) (origin : Long) :
    Instruction.Line (c.decode.1.body origin) := by
  obtain ⟨blanks, hblanks, hbody⟩ := c.decode.1.body_eq origin
  rw [hbody]
  by_cases hnone : c.decode.1.operands = []
  · rw [hnone, List.map_nil, String.intercalate_nil, String.append_empty]
    exact .mnemonic c.spelled_mnemonic blanks
  · refine .operands c.spelled_mnemonic (hblanks hnone) (mt List.map_eq_nil_iff.mp hnone) ?_
    exact List.forall_mem_map.mpr fun o ho => (h o ho).solid_text origin

/-- An instruction that moves no registers is none. If the empty list comes first, the separator
stands behind a blank, and otherwise a blank ends the line. -/
theorem not_line_body (h : c.MovesNothing) (origin : Long) :
    ¬ Instruction.Line (c.decode.1.body origin) := by
  intro hline
  obtain ⟨a, b, hoperands, hempty⟩ := operands_of_movesNothing h
  have hnothing : (Operand.registers 0).text origin = "" := RegisterList.text_eq_empty_iff.mpr rfl
  have hbody : c.decode.1.body origin = Column.left c.decode.1.width c.decode.1.mnemonic ++ " " ++
      (a.text origin ++ ", " ++ b.text origin) := by
    simp [Instruction.body, hoperands]
  have hsolid : Solid .gaps (c.decode.1.body origin) := hline.solid (by rw [hbody]; simp)
  rw [hbody] at hsolid
  rcases hempty with rfl | rfl
  · rw [hnothing, String.empty_append] at hsolid
    exact not_tidy_gap _ _ hsolid.tidy
  · rw [hnothing, String.append_empty, ← String.append_assoc] at hsolid
    exact not_solid_gap _ hsolid

end Cursor

/-- **Instructions are lines of assembler text**, whatever is in memory and whichever the processor
is, except for those that move a list of registers with none in it. -/
theorem disassemble_line_iff (memory : Memory) (address : Long) (cpu : Cpu) :
    let c : Cursor := { memory, cpu, address }
    Instruction.Line (before ';' (disassemble memory address cpu).text) ↔ ¬ c.MovesNothing := by
  intro c
  have hbody : before ';' (disassemble memory address cpu).text =
      c.decode.1.body (c.advance 1).address := c.before_semicolon _
  rw [hbody]
  refine ⟨fun hline h => Cursor.not_line_body h _ hline, fun h => ?_⟩
  exact Cursor.line_body (c.decode_operands.2.mpr h) _

/-- A `movem` of no registers to the stack. -/
theorem disassemble_line_ne :
    let d := disassemble ⟨fun n => if n = 0 then 0x48e7 else 0⟩ 0 .m68000
    d.text = "movem.l , -(A7)" ∧ ¬ Instruction.Line (before ';' d.text) := by
  intro d
  have htext : d.text = "movem.l , -(A7)" := by decide +kernel
  refine ⟨htext, fun hline => ?_⟩
  rw [htext] at hline
  have htidy := (hline.solid (by decide)).tidy
  exact absurd htidy (by decide)

end Disasm68
