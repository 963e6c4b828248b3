import Disasm68.Family.Decode
import Disasm68.Proofs.Reader.Ensures
import Disasm68.Proofs.Text.Intercalate

/-!
# What the place of an instruction shows in

An instruction is decoded without knowing where it stands. The place comes in when it is printed,
and only in the target of a branch: branches and loops are *relative*, their text names one place
at a distance that is part of the instruction, and all other instructions are *fixed*, their text
is the same everywhere. Which of the two it is depends on the family alone
(`Family.decode_relative`, `Family.decode_fixed`).
-/

namespace Disasm68

open Reader

/-- The families of branches and loops, of the processor and of a coprocessor. -/
def Family.isRelative : Family → Bool
  | .branch _ _ | .dbra | .dbcc | .coprocessor (.branch _) | .coprocessor .loop => true
  | _ => false

/-- Whether an operand is a place to continue at. -/
def Operand.isTarget : Operand → Bool
  | .target _ => true
  | _ => false

/-- Whether a note names a place to continue at. -/
def Note.namesTarget : Note → Bool
  | .coprocessor (some _) _ => true
  | _ => false

theorem Operand.text_of_not_target {a : Operand} (h : a.isTarget = false) (origin origin' : Long) :
    a.text origin = a.text origin' := by
  cases a
  case target => cases h
  all_goals rfl

/-- Operands that are no targets are printed alike everywhere. -/
theorem Operand.texts_of_no_target {operands : List Operand}
    (h : operands.any Operand.isTarget = false) (origin origin' : Long) :
    operands.map (Operand.text origin) = operands.map (Operand.text origin') := by
  refine List.map_congr_left fun a ha => ?_
  have hall := List.any_eq_false.mp h a ha
  exact text_of_not_target (Bool.eq_false_iff.mpr hall) origin origin'

theorem Note.text_of_no_target {note : Note} (h : note.namesTarget = false)
    (origin origin' : Long) : note.text origin = note.text origin' := by
  cases note with
  | coprocessor distance extension =>
    cases distance with
    | none => rfl
    | some d => cases h
  | empty | tag | illegal | lineA | lineF => rfl

namespace Instruction

/-- The text is the same at every place. -/
def Fixed (i : Instruction) : Prop :=
  ∀ origin origin', i.text origin = i.text origin'

/-- The text names one place at a distance from the instruction and is otherwise the same at every
place. -/
def Relative (i : Instruction) : Prop :=
  ∃ before after distance, ∀ origin,
    i.text origin = before ++ Hex.lower (origin + distance).toNat ++ after

/-- Whether an operand or the note is a place to continue at. -/
def namesTarget (i : Instruction) : Bool :=
  i.operands.any Operand.isTarget || i.note.namesTarget

/-- Mnemonic and operands are the same everywhere if no operand is a target. -/
theorem body_of_no_target {i : Instruction} (h : i.operands.any Operand.isTarget = false)
    (origin origin' : Long) : i.body origin = i.body origin' := by
  obtain ⟨mnemonic, width, operands, note⟩ := i
  have htexts := Operand.texts_of_no_target h origin origin'
  cases operands with
  | nil => rfl
  | cons a operands => simp only [body, htexts]

theorem fixed_of_namesTarget {i : Instruction} (h : i.namesTarget = false) : i.Fixed := by
  obtain ⟨hoperands, hnote⟩ := Bool.or_eq_false_iff.mp h
  intro origin origin'
  rw [text, text, body_of_no_target hoperands origin origin',
    Note.text_of_no_target hnote origin origin']

/-- A target that is the last operand. -/
theorem relative_of_target {mnemonic : String} {width : Nat} (init : List Operand)
    {distance : Long} {note : Note} (hinit : init.any Operand.isTarget = false)
    (hnote : note.namesTarget = false) :
    (Instruction.mk mnemonic width (init ++ [.target distance]) note).Relative := by
  obtain ⟨before, hbefore⟩ :=
    Text.exists_intercalate_concat ", " (init.map (Operand.text 0))
  refine ⟨Column.left width mnemonic ++ " " ++ before, note.text 0, distance, fun origin => ?_⟩
  have htexts := Operand.texts_of_no_target hinit origin 0
  have hbody : (Instruction.mk mnemonic width (init ++ [.target distance]) note).body origin =
      Column.left width mnemonic ++ " " ++
        ", ".intercalate (init.map (Operand.text 0) ++ [(Operand.target distance).text origin]) := by
    rw [← htexts]
    cases init <;> simp [body]
  rw [text, hbody, hbefore, Note.text_of_no_target hnote origin 0, Operand.text]
  simp only [String.append_assoc]

/-- A target in the note of a coprocessor instruction. -/
theorem relative_of_note {mnemonic : String} {width : Nat} {operands : List Operand}
    {distance : Long} {extension : Word} (h : operands.any Operand.isTarget = false) :
    (Instruction.mk mnemonic width operands (.coprocessor (some distance) extension)).Relative := by
  let i := Instruction.mk mnemonic width operands (.coprocessor (some distance) extension)
  refine ⟨i.body 0 ++ "; ", " (extension = " ++ Hex.lower extension.toNat ++ ") " ++
    Tag.coprocessor.text, distance, fun origin => ?_⟩
  have hspace : " " ++ "(extension = " = " (extension = " := rfl
  show i.body origin ++ (Note.coprocessor (some distance) extension).text origin = _
  rw [body_of_no_target h origin 0, Note.text, ← hspace]
  simp only [String.append_assoc]

end Instruction

open Instruction (fixed_of_namesTarget relative_of_target relative_of_note)

variable (format : IndexFormat) (opcode : Word)

theorem Branch.decode_relative (size : Size) (kind : Branch) :
    (kind.decode opcode size).Ensures fun i _ => i.Relative := by
  have target (mnemonic : String) (distance : Long) {note : Note} (h : note.namesTarget = false) :
      (Instruction.of mnemonic [.target distance] note).Relative :=
    relative_of_target [] rfl h
  cases size with
  | byte => exact target _ _ rfl
  | word => exact fun _ => target _ _ rfl
  | long => exact fun _ => target _ _ rfl

theorem BlockMove.decode_fixed (form : BlockMove) :
    (form.decode opcode).Ensures fun i _ => i.Fixed := by
  cases form
  all_goals exact fun _ => fixed_of_namesTarget rfl

theorem CacheOperation.fixed_instruction (op : CacheOperation) : (op.instruction opcode).Fixed := by
  unfold instruction
  dsimp only
  split
  · exact fixed_of_namesTarget rfl
  · split
    · exact fixed_of_namesTarget rfl
    · split <;> exact fixed_of_namesTarget rfl

/-- A coprocessor instruction names its target in the note, if it is a branch or a loop. -/
theorem CoprocessorOperation.decode_relative {op : CoprocessorOperation}
    (h : (Family.coprocessor op).isRelative = true) :
    (op.decode format opcode).Ensures fun i _ => i.Relative := by
  cases op with
  | branch size =>
    cases size with
    | byte | word => exact fun _ _ => relative_of_note rfl
    | long => exact fun _ _ _ => relative_of_note rfl
  | loop => exact fun _ _ _ => relative_of_note rfl
  | general | restore | save | set | trap => cases h

theorem CoprocessorOperation.decode_fixed {op : CoprocessorOperation}
    (h : (Family.coprocessor op).isRelative = false) :
    (op.decode format opcode).Ensures fun i _ => i.Fixed := by
  cases op with
  | branch | loop => cases h
  | general | restore | save => exact ensures_behind _ fun _ => fixed_of_namesTarget rfl
  | set =>
    refine ensures_behind _ fun predicate => ensures_behind _ fun extension => ?_
    exact ensures_behind _ fun _ => fixed_of_namesTarget rfl
  | trap size =>
    cases size with
    | none => exact fun _ _ => fixed_of_namesTarget rfl
    | some size =>
      refine ensures_behind _ fun predicate => ensures_behind _ fun extension => ?_
      exact ensures_behind _ fun _ => fixed_of_namesTarget rfl

/-- **Branches and loops name a place.** -/
theorem Family.decode_relative {family : Family} (h : family.isRelative = true) :
    (family.decode format opcode).Ensures fun i _ => i.Relative := by
  cases family
  case branch kind size => exact kind.decode_relative opcode size
  case coprocessor op => exact op.decode_relative format opcode h
  case dbra => exact fun _ => relative_of_target [_] rfl rfl
  case dbcc => exact fun _ => relative_of_target [_] rfl rfl
  all_goals cases h

/-- **All other instructions have one text.** The cases are grouped by what is read. -/
theorem Family.decode_fixed {family : Family} (h : family.isRelative = false) :
    (family.decode format opcode).Ensures fun i _ => i.Fixed := by
  cases family
  case branch | dbra | dbcc => cases h
  case coprocessor op => exact op.decode_fixed format opcode h
  case move16 form => exact form.decode_fixed opcode
  case cache op => exact op.fixed_instruction opcode
  case exchange kind => cases kind <;> exact fixed_of_namesTarget rfl
  -- nothing is read
  case illegal | lineA | lineF | extendedRegisters | extendedMemory | cmpm | ext | extb | swap
      | shiftConstant | shiftRegister | rts | rte | rtr | rtm | trap | trapv | bkpt | reset | nop
      | moveq | moveToUsp | moveFromUsp | unlk =>
    exact fixed_of_namesTarget rfl
  -- a word, a value or an address
  case toData | fromData | toAddress | immediateToCcr | immediateToSr | addq | subq | unary
      | testExtended | nbcd | tas | product | shiftMemory | bitRegister | scc | jmp | jsr | rtd
      | stop | movea | moveToCcr | moveFromCcr | moveToSr | moveFromSr | movepFromMemory
      | movepToMemory | lea | pea | cas2 =>
    exact ensures_behind _ fun _ => fixed_of_namesTarget rfl
  -- a word or a value, and an address
  case compareProgram | bitConstant | bounds | callm | move | cas =>
    exact ensures_behind _ fun _ => ensures_behind _ fun _ => fixed_of_namesTarget rfl
  -- the operands or the note depend on the opcode or on what is read
  case immediate op size =>
    refine ensures_behind _ fun _ => ensures_behind _ fun _ => fixed_of_namesTarget ?_
    cases op <;> rfl
  case pack inMemory | unpack inMemory =>
    refine ensures_behind _ fun _ => fixed_of_namesTarget ?_
    cases inMemory <;> rfl
  case trapcc size =>
    cases size with
    | none => exact fixed_of_namesTarget rfl
    | some size => exact ensures_behind _ fun _ => fixed_of_namesTarget rfl
  case chk size | link size =>
    refine ensures_behind _ fun _ => fixed_of_namesTarget ?_
    cases size <;> rfl
  case movem form size =>
    refine ensures_behind _ fun _ => ensures_behind _ fun _ => fixed_of_namesTarget ?_
    cases form <;> rfl
  case movec =>
    refine ensures_behind _ fun _ => fixed_of_namesTarget ?_
    split <;> rfl
  case bitField | moves =>
    refine ensures_behind _ fun _ => ensures_behind _ fun _ => fixed_of_namesTarget ?_
    split <;> rfl
  case multiplyLong =>
    refine ensures_behind _ fun _ => ensures_behind _ fun _ => fixed_of_namesTarget ?_
    split <;> rfl
  case divideLong =>
    refine ensures_behind _ fun _ => ensures_behind _ fun _ => fixed_of_namesTarget ?_
    split
    · rfl
    · split <;> rfl

end Disasm68
