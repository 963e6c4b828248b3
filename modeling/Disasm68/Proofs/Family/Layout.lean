import Disasm68.Disassembly
import Disasm68.Proofs.Disassembly.Body

/-!
# What stands behind a mnemonic

A blank follows the mnemonic of an instruction wherever there is an operand. An instruction without
operands is set apart from its note by the blanks that fill up the mnemonic, so if the mnemonic fills
its column by itself, the semicolon stands directly behind it. Such an instruction is *crowded*
(`Instruction.exists_text_eq`).

Of all instructions only the traps on a condition have a note and no operands, and they are crowded
if the name of their condition is a long one (`Cursor.crowded_decode_iff`).
-/

namespace Disasm68

open Reader Text

namespace Instruction

/-- Whether the note stands directly behind the mnemonic. -/
def Crowded (i : Instruction) : Prop :=
  i.operands = [] ∧ i.note ≠ .empty ∧ i.width ≤ i.mnemonic.length

variable {i : Instruction}

theorem not_crowded_of_operands (h : i.operands ≠ []) : ¬ i.Crowded :=
  fun hcrowded => h hcrowded.1

theorem not_crowded_of_note (h : i.note = .empty) : ¬ i.Crowded :=
  fun hcrowded => hcrowded.2.1 h

/-- Nothing but the note is left of a crowded instruction. -/
theorem Crowded.text_eq (h : i.Crowded) (origin : Long) :
    i.text origin = i.mnemonic ++ i.note.text origin := by
  obtain ⟨mnemonic, width, operands, note⟩ := i
  obtain ⟨rfl, -, hwidth⟩ := h
  simp [text, body, Column.left, Nat.sub_eq_zero_of_le hwidth]

/-- **A blank separates the mnemonic from the rest** unless the instruction is crowded. -/
theorem exists_text_eq (h : ¬ i.Crowded) (origin : Long) :
    ∃ rest, i.text origin = i.mnemonic ++ rest ∧ ∀ d ∈ rest.toList.head?, d = ' ' := by
  by_cases hoperands : i.operands = []
  · obtain ⟨mnemonic, width, operands, note⟩ := i
    obtain rfl : operands = [] := hoperands
    let blanks : String := String.ofList (List.replicate (width - mnemonic.length) ' ')
    have htext : text ⟨mnemonic, width, [], note⟩ origin =
        mnemonic ++ (blanks ++ note.text origin) := String.append_assoc ..
    refine ⟨_, htext, fun d hd => ?_⟩
    rw [String.toList_append, String.toList_ofList] at hd
    by_cases hwidth : width ≤ mnemonic.length
    · have hnote : note = .empty := by
        by_contra hne
        exact h ⟨rfl, hne, hwidth⟩
      rw [hnote, Nat.sub_eq_zero_of_le hwidth] at hd
      cases hd
    · obtain ⟨n, hn⟩ : ∃ n, width - mnemonic.length = n + 1 :=
        Nat.exists_eq_add_one.mpr (by omega)
      rw [hn, List.replicate_succ] at hd
      exact (Option.some.inj hd).symm
  · obtain ⟨blanks, hblanks, hbody⟩ := i.body_eq origin
    obtain ⟨n, hn⟩ : ∃ n, blanks = n + 1 := Nat.exists_eq_add_one.mpr (hblanks hoperands)
    refine ⟨String.ofList (List.replicate blanks ' ') ++
      (", ".intercalate (i.operands.map (Operand.text origin)) ++ i.note.text origin), ?_, ?_⟩
    · rw [text, hbody]
      simp only [String.append_assoc]
    · rw [hn, List.replicate_succ]
      simp

@[simp] theorem not_crowded_of_cons (mnemonic : String) (o : Operand) (operands : List Operand)
    (note : Note) : ¬ (of mnemonic (o :: operands) note).Crowded :=
  not_crowded_of_operands (List.cons_ne_nil _ _)

@[simp] theorem not_crowded_compact_of_cons (mnemonic : String) (o : Operand)
    (operands : List Operand) (note : Note) :
    ¬ (compact mnemonic (o :: operands) note).Crowded :=
  not_crowded_of_operands (List.cons_ne_nil _ _)

@[simp] theorem not_crowded_compact (mnemonic : String) (operands : List Operand) :
    ¬ (compact mnemonic operands).Crowded :=
  not_crowded_of_note rfl

end Instruction

variable {format : IndexFormat} {opcode : Word}

theorem Branch.decode_not_crowded (opcode : Word) (size : Size) (kind : Branch) :
    (kind.decode opcode size).Ensures fun i _ => ¬ i.Crowded := by
  cases size <;> simp [Branch.decode]

theorem BlockMove.decode_not_crowded (opcode : Word) (form : BlockMove) :
    (form.decode opcode).Ensures fun i _ => ¬ i.Crowded := by
  cases form <;> simp [BlockMove.decode]

theorem CacheOperation.not_crowded_instruction (opcode : Word) (op : CacheOperation) :
    ¬ (op.instruction opcode).Crowded := by
  unfold instruction
  dsimp only
  repeat' split
  all_goals simp

theorem CoprocessorOperation.decode_not_crowded {op : CoprocessorOperation} (h : op ≠ .trap none) :
    (op.decode format opcode).Ensures fun i _ => ¬ i.Crowded := by
  cases op with
  | branch size => cases size <;> simp [CoprocessorOperation.decode]
  | general | restore | save | loop | set => simp [CoprocessorOperation.decode]
  | trap size =>
    cases size with
    | none => exact absurd rfl h
    | some size => simp [CoprocessorOperation.decode, Instruction.Crowded]

/-- **Only traps without an operand can be crowded.** The cases are grouped by what is read. -/
theorem Family.decode_not_crowded {family : Family} (htrap : family ≠ .trapcc none)
    (hcoprocessor : family ≠ .coprocessor (.trap none)) :
    (family.decode format opcode).Ensures fun i _ => ¬ i.Crowded := by
  cases family
  case branch kind size => exact kind.decode_not_crowded opcode size
  case move16 form => exact form.decode_not_crowded opcode
  case coprocessor op =>
    exact CoprocessorOperation.decode_not_crowded (mt (congrArg Family.coprocessor) hcoprocessor)
  case cache op => exact op.not_crowded_instruction opcode
  case exchange kind => cases kind <;> simp [decode]
  case trapcc size =>
    cases size with
    | none => exact absurd rfl htrap
    | some size => simp [decode]
  case pack inMemory | unpack inMemory => cases inMemory <;> simp [decode, decode.pair]
  -- nothing is read
  case illegal | lineA | lineF | extendedRegisters | extendedMemory | cmpm | ext | extb | swap
      | shiftConstant | shiftRegister | rts | rte | rtr | rtm | trap | trapv | bkpt | reset | nop
      | moveq | moveToUsp | moveFromUsp | unlk =>
    simp [decode]
  -- one value or address is read
  case toData | fromData | toAddress | immediateToCcr | immediateToSr | addq | subq | unary
      | testExtended | nbcd | tas | product | shiftMemory | bitRegister | dbra | dbcc | scc | jmp
      | jsr | rtd | stop | chk | movea | moveToCcr | moveFromCcr | moveToSr | moveFromSr
      | movepFromMemory | movepToMemory | lea | pea | link | cas2 =>
    simp [decode]
  -- and another address behind it
  case immediate | compareProgram | bitConstant | callm | move | cas | bounds =>
    simp [decode]
  -- the operands or their order depend on what is read
  case movec =>
    refine ensures_behind _ fun extension => ?_
    show ¬ Instruction.Crowded (.of _ (if _ then _ else _) _)
    split <;> simp
  case bitField | movem | moves | divideLong | multiplyLong =>
    refine ensures_behind _ fun extension => ensures_behind _ fun ea => ?_
    simp only [pure_eq_done, ensures_done]
    repeat' split
    all_goals simp

namespace Cursor

/-- Whether the instruction under a cursor is a trap without an operand whose condition has a long
name: two letters where a processor has at most two, and `ngle`, the only one of four, where a
coprocessor has at most four. -/
def TrapsByLongName (c : Cursor) : Prop :=
  c.cpu.family c.word = .trapcc none ∧
      (Opcode.condition c.word ≠ .t ∧ Opcode.condition c.word ≠ .f) ∨
    c.cpu.family c.word = .coprocessor (.trap none) ∧ (c.advance 1).word.extractLsb' 0 6 = 24

variable {c : Cursor}

theorem crowded_of_trapcc (hfamily : c.cpu.family c.word = .trapcc none) :
    c.decode.1.Crowded ↔ Opcode.condition c.word ≠ .t ∧ Opcode.condition c.word ≠ .f := by
  have hsuffix (condition : Condition) :
      6 ≤ ("trap" ++ condition.suffix).length ↔ condition ≠ .t ∧ condition ≠ .f := by
    cases condition <;> decide
  unfold decode
  rw [hfamily, ← hsuffix]
  exact ⟨fun h => h.2.2, fun h => ⟨rfl, by simp [Family.decode, run], h⟩⟩

theorem crowded_of_coprocessor (hfamily : c.cpu.family c.word = .coprocessor (.trap none)) :
    c.decode.1.Crowded ↔ (c.advance 1).word.extractLsb' 0 6 = 24 := by
  have hname : ∀ bits : BitVec 6, 9 ≤ 5 + (Coprocessor.condition bits).length ↔ bits = 24 := by
    decide +kernel
  have hid : ∀ n : BitVec 3, (toString n.toNat).length = 1 := by decide
  have hlength (bits : BitVec 6) :
      (Opcode.coprocessor c.word ++ "trap" ++ Coprocessor.condition bits).length =
        5 + (Coprocessor.condition bits).length := by
    rw [String.length_append, String.length_append, Opcode.coprocessor, hid]
    rfl
  unfold decode
  rw [hfamily, ← hname, ← hlength]
  exact ⟨fun h => h.2.2, fun h => ⟨rfl, nofun, h⟩⟩

/-- **Instructions are crowded exactly if they are traps by a long name.** -/
theorem crowded_decode_iff : c.decode.1.Crowded ↔ c.TrapsByLongName := by
  by_cases htrap : c.cpu.family c.word = .trapcc none
  · rw [crowded_of_trapcc htrap]
    simp [TrapsByLongName, htrap]
  by_cases hcoprocessor : c.cpu.family c.word = .coprocessor (.trap none)
  · rw [crowded_of_coprocessor hcoprocessor]
    simp [TrapsByLongName, hcoprocessor]
  · refine iff_of_false ?_ fun h => h.elim (htrap ·.1) (hcoprocessor ·.1)
    exact (Family.decode_not_crowded htrap hcoprocessor).run (c.advance 1)

end Cursor

end Disasm68
