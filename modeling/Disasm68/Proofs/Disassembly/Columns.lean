import Disasm68.Proofs.Family.Layout
import Disasm68.Proofs.Listing.Uppercase

/-!
# The mnemonic column

The column of the mnemonic reaches up to the first blank of an instruction. It holds the mnemonic
and nothing else unless the instruction is crowded; then the semicolon of the note is in it too
(`Cursor.mnemonicOf_text_of_crowded`). So the signs of operands and notes are kept out of it, except
behind the traps of `Cursor.TrapsByLongName` (`disassemble_columns_iff`). In any case mnemonic,
blanks and operands make up the text.
-/

namespace Disasm68

open Text

namespace Columns

/-- Characters of operands and notes that no mnemonic is written with. -/
def signs : List Char := [';', ',', '(', '$', '#']

/-- The letters of mnemonics are no signs in either case. -/
theorem not_mem_signs {c : Char} :
    Mnemonic.isLetter c = true → c ∉ signs ∧ c.toUpper ∉ signs := by
  intro h
  have hprintable := Mnemonic.isPrintable_of_isLetter h
  revert h
  exact isPrintable_induction
    (p := fun c => Mnemonic.isLetter c = true → c ∉ signs ∧ c.toUpper ∉ signs) (by decide) hprintable

/-- Of the printable characters only one is blank. -/
theorem eq_of_isBlank {c : Char} (h : isPrintable c = true) (hblank : Blank.isBlank c = true) :
    c = ' ' :=
  isPrintable_induction (p := fun c => Blank.isBlank c = true → c = ' ') (by decide) h hblank

/-- Between the mnemonic and the operands of a printable text there are blanks, one at least if
there are operands. -/
theorem exists_blanks {text : List Char} (h : ∀ c ∈ text, isPrintable c = true) :
    ∃ blanks, text.dropWhile (· ≠ ' ') = List.replicate blanks ' ' ++ operandsOf text ∧
      (operandsOf text ≠ [] → 0 < blanks) := by
  unfold operandsOf
  cases hrest : text.dropWhile (· ≠ ' ') with
  | nil => exact ⟨0, rfl, fun hne => absurd rfl hne⟩
  | cons c rest =>
    have hc : c = ' ' := by
      have hhead := List.head?_dropWhile_not (· ≠ ' ') text
      rw [hrest] at hhead
      simpa using hhead
    have hprintable : ∀ d ∈ rest, isPrintable d = true := fun d hd =>
      h d ((List.dropWhile_sublist _).subset (hrest ▸ List.mem_cons_of_mem c hd))
    have hblanks : rest.takeWhile Blank.isBlank =
        List.replicate (rest.takeWhile Blank.isBlank).length ' ' := by
      refine List.eq_replicate_of_mem fun d hd => ?_
      exact eq_of_isBlank (hprintable d ((List.takeWhile_sublist _).subset hd))
        (List.all_eq_true.mp List.all_takeWhile d hd)
    refine ⟨(rest.takeWhile Blank.isBlank).length + 1, ?_, fun _ => Nat.succ_pos _⟩
    rw [List.replicate_succ, List.cons_append, ← hblanks, hc, List.drop_one, List.tail_cons,
      List.takeWhile_append_dropWhile]

/-- The column in the case wanted shows the characters of the mnemonic, each in one of its cases. -/
theorem mem_shownMnemonic {text : List Char} (h : ∀ c ∈ text, isPrintable c = true)
    {uppercase : Bool} {c : Char} :
    c ∈ shownMnemonic uppercase text ↔
      ∃ d ∈ mnemonicOf text, c = if uppercase then d.toUpper else d := by
  have hmnemonic : ∀ d ∈ mnemonicOf text, isPrintable d = true :=
    fun d hd => h d ((List.takeWhile_sublist _).subset hd)
  cases uppercase with
  | false => simp [shownMnemonic]
  | true => simp [shownMnemonic, Uppercase.text_of_printable hmnemonic, eq_comm]

end Columns

/-- A note begins with a semicolon and a blank. -/
theorem Note.exists_text_eq {note : Note} (h : note ≠ .empty) (origin : Long) :
    ∃ rest, (note.text origin).toList = ';' :: ' ' :: rest := by
  cases note with
  | empty => exact absurd rfl h
  | coprocessor distance extension => cases distance <;> simp [text]
  | tag | illegal | lineA | lineF => simp [text]

namespace Cursor

variable {c : Cursor}

theorem ne_blank_of_mem_mnemonic (c : Cursor) :
    ∀ d ∈ c.decode.1.mnemonic.toList, decide (d ≠ ' ') = true := by
  intro d hd
  have hletter := c.spelled_mnemonic.written d hd
  exact decide_eq_true fun hblank => absurd (hblank ▸ hletter) (by decide)

/-- **The mnemonic column holds the mnemonic only** if a blank follows it. -/
theorem mnemonicOf_text (h : ¬ c.decode.1.Crowded) (origin : Long) :
    Columns.mnemonicOf (c.decode.1.text origin).toList = c.decode.1.mnemonic.toList := by
  obtain ⟨rest, htext, hrest⟩ := Instruction.exists_text_eq h origin
  rw [htext, String.toList_append]
  exact takeWhile_append c.ne_blank_of_mem_mnemonic fun d hd => by simp [hrest d hd]

/-- In a crowded instruction the semicolon is part of the column. -/
theorem mnemonicOf_text_of_crowded (h : c.decode.1.Crowded) (origin : Long) :
    Columns.mnemonicOf (c.decode.1.text origin).toList = c.decode.1.mnemonic.toList ++ [';'] := by
  obtain ⟨rest, hnote⟩ := Note.exists_text_eq h.2.1 origin
  have htext : (c.decode.1.text origin).toList =
      (c.decode.1.mnemonic.toList ++ [';']) ++ ' ' :: rest := by
    rw [h.text_eq, String.toList_append, hnote]
    simp
  rw [htext]
  refine takeWhile_append (fun d hd => ?_) fun d hd => ?_
  · rcases List.mem_append.mp hd with hmnemonic | hsemicolon
    · exact c.ne_blank_of_mem_mnemonic d hmnemonic
    · rw [List.mem_singleton.mp hsemicolon]
      decide
  · rw [← Option.some.inj hd]
    decide

end Cursor

/-- **The columns of an instruction.** Whatever is in memory, whichever the processor and the case
wanted are, an instruction can be taken apart, and mnemonic, blanks and operands make up its text.
No sign of an operand or note is in the column of the mnemonic unless the instruction is a trap by a
long name. -/
theorem disassemble_columns_iff (memory shown : Memory) (address : Long) (cpu : Cpu)
    (uppercase : Bool) :
    let c : Cursor := { memory, cpu, address }
    let d := disassemble memory address cpu
    ∃ columns, d.columns shown uppercase = some columns ∧
      (uppercase = false → columns.text = d.text) ∧
      (∃ blanks, columns.text =
          columns.mnemonic ++ String.ofList (List.replicate blanks ' ') ++ columns.operands ∧
        (columns.operands ≠ "" → 0 < blanks)) ∧
      ((∀ sign ∈ Columns.signs, sign ∉ columns.mnemonic.toList) ↔ ¬ c.TrapsByLongName) := by
  intro c d
  have hprintable : ∀ e ∈ d.text.toList, isPrintable e = true :=
    disassemble_printable memory address cpu
  obtain ⟨blanks, hrest, hblanks⟩ := Columns.exists_blanks hprintable
  let mnemonic := Columns.shownMnemonic uppercase d.text.toList
  let operands := Columns.operandsOf d.text.toList
  let columns : Columns := ⟨d.hexColumn shown, String.ofList mnemonic, String.ofList operands,
    String.ofList (mnemonic ++ d.text.toList.dropWhile (· ≠ ' '))⟩
  have hcolumns : d.columns shown uppercase = some columns := by
    rw [Disassembly.columns, Disassembly.shownText_eq hprintable]
    rfl
  refine ⟨columns, hcolumns, ?_, ⟨blanks, ?_, fun hne => hblanks fun hnil => hne ?_⟩, ?_⟩
  · rintro rfl
    show String.ofList (Columns.mnemonicOf d.text.toList ++ _) = d.text
    rw [Columns.mnemonicOf, List.takeWhile_append_dropWhile, String.ofList_toList]
  · show String.ofList (mnemonic ++ _) = String.ofList mnemonic ++ _ ++ String.ofList operands
    rw [hrest, ← String.ofList_append, ← String.ofList_append, List.append_assoc]
  · exact String.ofList_eq_empty_iff.mpr hnil
  · show (∀ sign ∈ Columns.signs, sign ∉ (String.ofList mnemonic).toList) ↔ _
    simp only [String.toList_ofList, mnemonic, Columns.mem_shownMnemonic hprintable,
      ← Cursor.crowded_decode_iff]
    constructor
    · intro hsigns hcrowded
      refine hsigns ';' (by decide) ⟨';', ?_, by cases uppercase <;> rfl⟩
      rw [show d.text = c.decode.1.text (c.advance 1).address from rfl,
        Cursor.mnemonicOf_text_of_crowded hcrowded]
      exact List.mem_append_right _ (List.mem_singleton_self _)
    · rintro hcrowded sign hsign ⟨e, he, rfl⟩
      rw [show d.text = c.decode.1.text (c.advance 1).address from rfl,
        Cursor.mnemonicOf_text hcrowded] at he
      have hletter := Columns.not_mem_signs (c.spelled_mnemonic.written e he)
      cases uppercase with
      | false => exact hletter.1 hsign
      | true => exact hletter.2 hsign

/-- Behind the name of a condition of two letters there is no blank. -/
theorem disassemble_columns_ne :
    let memory : Memory := ⟨fun n => if n = 0 then 0x57fc else 0⟩
    ∃ columns, (disassemble memory 0 .m68020).columns memory false = some columns ∧
      ';' ∈ columns.mnemonic.toList :=
  ⟨⟨"57FC", "trapeq;", "(2+)", "trapeq; (2+)"⟩, by decide +kernel, by decide⟩

end Disasm68
