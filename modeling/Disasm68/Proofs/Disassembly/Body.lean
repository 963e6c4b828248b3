import Disasm68.Proofs.Family.Letters
import Disasm68.Proofs.Family.Operands
import Disasm68.Proofs.Instruction

/-!
# The characters of an instruction

In front of its note an instruction consists of the letters of mnemonics and of operands, of commas
and of blanks (`Cursor.written_body`). There is neither a semicolon among them, so the note begins
at the first one (`Cursor.before_semicolon`), nor a capital `N`.
-/

namespace Disasm68

open Text

/-- What stands in front of the first such character. -/
def Text.before (c : Char) (s : String) : String :=
  String.ofList (s.toList.takeWhile (· ≠ c))

/-- A text is taken up to where the condition fails first. -/
theorem Text.takeWhile_append {p : Char → Bool} {s t : List Char} (hs : ∀ c ∈ s, p c = true)
    (ht : ∀ d ∈ t.head?, p d = false) : (s ++ t).takeWhile p = s := by
  have hback : t.takeWhile p = [] := by
    cases t with
    | nil => rfl
    | cons d rest => exact List.takeWhile_cons_of_neg (by simp [ht d rfl])
  rw [List.takeWhile_append_of_pos hs, hback, List.append_nil]

/-- What follows may begin with the character. -/
theorem Text.before_append {c : Char} {s t : String} (hs : c ∉ s.toList)
    (ht : ∀ d ∈ t.toList.head?, d = c) : before c (s ++ t) = s := by
  rw [before, String.toList_append, takeWhile_append, String.ofList_toList]
  · exact fun d hd => decide_eq_true (ne_of_mem_of_not_mem hd hs)
  · exact fun d hd => by simp [ht d hd]

/-- The characters of an instruction in front of its note. -/
def Instruction.isLetter (c : Char) : Bool :=
  Mnemonic.isLetter c || Operand.isLetter c || c = ',' || c = ' '

/-- A note begins with a semicolon. -/
theorem Note.head_text (note : Note) (origin : Long) :
    ∀ d ∈ (note.text origin).toList.head?, d = ';' := by
  cases note <;> simp [text]

namespace Cursor

theorem written_body (c : Cursor) (origin : Long) :
    Written Instruction.isLetter (c.decode.1.body origin) := by
  have hmnemonic : ∀ d, Mnemonic.isLetter d = true → Instruction.isLetter d = true := by
    intro d hd
    simp [Instruction.isLetter, hd]
  have hoperand : ∀ d, Operand.isLetter d = true ∨ d = ',' ∨ d = ' ' →
      Instruction.isLetter d = true := by
    rintro d (hd | rfl | rfl)
    · simp [Instruction.isLetter, hd]
    · decide
    · decide
  have hseparator : Written Instruction.isLetter ", " := by decide
  obtain ⟨blanks, -, hbody⟩ := c.decode.1.body_eq origin
  rw [hbody, written_append, written_append]
  refine ⟨⟨(c.spelled_mnemonic.mono hmnemonic).written, fun d hd => ?_⟩, ?_⟩
  · rw [String.toList_ofList] at hd
    rw [List.eq_of_mem_replicate hd]
    decide
  · refine forall_mem_intercalate hseparator (List.forall_mem_map.mpr fun o ho d hd => ?_)
    exact hoperand d ((c.decode_operands.1 o ho).forall_mem origin d hd)

/-- The note begins at the first semicolon. -/
theorem before_semicolon (c : Cursor) (origin : Long) :
    before ';' (c.decode.1.text origin) = c.decode.1.body origin := by
  refine before_append (fun hmem => ?_) (Note.head_text _ origin)
  exact absurd (c.written_body origin ';' hmem) (by decide)

end Cursor

end Disasm68
