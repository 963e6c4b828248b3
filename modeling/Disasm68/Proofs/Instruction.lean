import Disasm68.Instruction
import Disasm68.Proofs.Numeral.Hex
import Disasm68.Proofs.Text.Intercalate

/-!
# The text of an instruction and its parts

The body consists of the mnemonic, blanks and operands (`body_eq`). So the text begins with the
mnemonic (`text_eq_append`), and a change of one operand or of the note shows in it
(`text_of_operand_ne`, `text_note_inj`).
-/

namespace Disasm68

/-- The note of a coprocessor instruction shows the target it has. -/
theorem Note.coprocessor_text_inj {distance distance' : Long} {extension : Word} {origin : Long} :
    (Note.coprocessor (some distance) extension).text origin =
      (Note.coprocessor (some distance') extension).text origin ↔ distance = distance' := by
  simp only [text, String.append_left_inj, String.append_right_inj, Hex.lower_inj, BitVec.toNat_inj,
    BitVec.add_right_inj]

namespace Instruction

@[simp] theorem mnemonic_of (mnemonic : String) (operands : List Operand) (note : Note) :
    (of mnemonic operands note).mnemonic = mnemonic := rfl

@[simp] theorem mnemonic_compact (mnemonic : String) (operands : List Operand) (note : Note) :
    (compact mnemonic operands note).mnemonic = mnemonic := rfl

/-- What the body is made of: the mnemonic, blanks and operands. There is a blank at least in front of
operands. -/
theorem body_eq (i : Instruction) (origin : Long) :
    ∃ blanks, (i.operands ≠ [] → 0 < blanks) ∧
      i.body origin = i.mnemonic ++ String.ofList (List.replicate blanks ' ') ++
        ", ".intercalate (i.operands.map (Operand.text origin)) := by
  obtain ⟨mnemonic, width, operands, note⟩ := i
  cases operands with
  | nil => exact ⟨width - mnemonic.length, nofun, by simp [body, Column.left]⟩
  | cons a operands =>
    refine ⟨width - mnemonic.length + 1, fun _ => Nat.succ_pos _, ?_⟩
    rw [List.replicate_succ', String.ofList_append, ← String.append_assoc]
    rfl

/-- The text begins with the mnemonic. -/
theorem text_eq_append (i : Instruction) (origin : Long) :
    ∃ rest, i.text origin = i.mnemonic ++ rest := by
  obtain ⟨blanks, -, hbody⟩ := i.body_eq origin
  rw [text, hbody, String.append_assoc, String.append_assoc]
  exact ⟨_, rfl⟩

/-- Another operand in one place makes another text. -/
theorem text_of_operand_ne {mnemonic : String} {width : Nat} {note : Note} {origin : Long}
    (init rest : List Operand) {a b : Operand} (h : a.text origin ≠ b.text origin) :
    (Instruction.mk mnemonic width (init ++ a :: rest) note).text origin ≠
      (Instruction.mk mnemonic width (init ++ b :: rest) note).text origin := by
  -- a list with an operand in it is not empty, so the body has its operands in either case
  have hbody (x : Operand) : (Instruction.mk mnemonic width (init ++ x :: rest) note).body origin =
      Column.left width mnemonic ++ " " ++
        ", ".intercalate (init.map (Operand.text origin) ++
          x.text origin :: rest.map (Operand.text origin)) := by
    cases init <;> simp [body]
  intro ht
  rw [text, text, String.append_left_inj, hbody, hbody, String.append_right_inj,
    Text.intercalate_replace_inj] at ht
  exact h ht

/-- Another note makes another text. -/
theorem text_note_inj {mnemonic : String} {operands : List Operand} {note note' : Note}
    {origin : Long} :
    (of mnemonic operands note).text origin = (of mnemonic operands note').text origin ↔
      note.text origin = note'.text origin :=
  String.append_right_inj _

variable {mnemonic : String} {note : Note} {origin : Long} {a b x y : Operand}
  {rest : List Operand}

theorem text_first_ne (h : a.text origin ≠ b.text origin) :
    (of mnemonic (a :: rest) note).text origin ≠ (of mnemonic (b :: rest) note).text origin :=
  text_of_operand_ne [] rest h

theorem text_second_ne (h : a.text origin ≠ b.text origin) :
    (of mnemonic (x :: a :: rest) note).text origin ≠
      (of mnemonic (x :: b :: rest) note).text origin :=
  text_of_operand_ne [x] rest h

theorem text_third_ne (h : a.text origin ≠ b.text origin) :
    (of mnemonic (x :: y :: a :: rest) note).text origin ≠
      (of mnemonic (x :: y :: b :: rest) note).text origin :=
  text_of_operand_ne [x, y] rest h

/-- A first operand of the same length that differs shows whatever follows it. -/
theorem text_first_ne_of_length {rest' : List Operand} {note' : Note}
    (hlen : (a.text origin).length = (b.text origin).length) (h : a.text origin ≠ b.text origin) :
    (of mnemonic (a :: rest) note).text origin ≠ (of mnemonic (b :: rest') note').text origin := by
  intro ht
  obtain ⟨t, hcons⟩ :=
    Text.exists_intercalate_cons ", " (a.text origin) (rest.map (Operand.text origin))
  obtain ⟨t', hcons'⟩ :=
    Text.exists_intercalate_cons ", " (b.text origin) (rest'.map (Operand.text origin))
  simp only [text, of, body, List.map_cons, hcons, hcons', String.append_assoc,
    String.append_right_inj] at ht
  exact h ((Text.append_inj hlen).mp ht).1

end Instruction

end Disasm68
