import Disasm68.Disassembly
import Disasm68.Proofs.Family.IndexWords
import Disasm68.Proofs.Opcode.Modes
import Disasm68.Proofs.Operand.Composed

/-!
# The operands of an instruction are complete

The addresses of an instruction have a mode, and for its other operands there is something to show,
except for the list of a `movem` that moves no registers (`Cursor.decode_operands`).
-/

namespace Disasm68

open Reader

namespace EffectiveAddress

variable {format : IndexFormat} {field : BitVec 6} {size : Size}

theorem decodeFull_defined (base : Base) (w : IndexWord) :
    (decodeFull base w).Ensures fun ea _ => ea.Defined := by
  unfold decodeFull
  split
  · trivial
  · split
    · trivial
    · exact ensures_behind _ fun _ => ensures_behind _ fun _ => trivial

theorem decodeIndexed_defined (format : IndexFormat) (base : Base) :
    (decodeIndexed format base).Ensures fun ea _ => ea.Defined := by
  intro w
  cases format with
  | brief =>
    show Defined (if (IndexWord.index ⟨w⟩).scale = 0 then _ else _)
    split <;> trivial
  | full =>
    show Ensures (if IndexWord.isFull ⟨w⟩ then _ else _) _
    split
    · exact (decodeFull_defined base ⟨w⟩).mono fun _ _ h => h
    · trivial

/-- A field that selects a mode is decoded to an address of a mode. -/
theorem decode_defined (hmode : ∃ mode, AddressMode.ofField? field = some mode) :
    (decode format field size).Ensures fun ea _ => ea.Defined := by
  obtain ⟨mode, hmode⟩ := hmode
  unfold decode
  rw [hmode]
  cases mode
  case index | pcIndex => exact decodeIndexed_defined format _
  case immediate => exact ensures_behind _ fun _ => trivial
  case displacement | absoluteShort | absoluteLong | pcDisplacement => exact fun _ => trivial
  all_goals trivial

/-- A field that selects none is decoded to an address without one. -/
theorem run_decode_defined_iff (c : Cursor) :
    ((decode format field size).run c).1.Defined ↔
      ∃ mode, AddressMode.ofField? field = some mode := by
  refine ⟨fun hdefined => ?_, fun hmode => (decode_defined hmode).run c⟩
  cases hmode : AddressMode.ofField? field with
  | some mode => exact ⟨mode, rfl⟩
  | none =>
    unfold decode at hdefined
    rw [hmode] at hdefined
    exact hdefined.elim

end EffectiveAddress

namespace Operand

@[simp] theorem complete_data (n : BitVec 3) : (data n).Complete := trivial

@[simp] theorem complete_pointer (n : BitVec 3) : (pointer n).Complete := trivial

@[simp] theorem complete_register (r : Register) : (register r).Complete := trivial

end Operand

@[simp] theorem EffectiveAddress.defined_register (r : Register) : (register r).Defined := trivial

@[simp] theorem EffectiveAddress.defined_indirect (n : BitVec 3) : (indirect n).Defined := trivial

@[simp] theorem EffectiveAddress.defined_postincrement (n : BitVec 3) : (postincrement n).Defined :=
  trivial

@[simp] theorem EffectiveAddress.defined_predecrement (n : BitVec 3) : (predecrement n).Defined :=
  trivial

/-- Whether all operands of an instruction are complete. -/
def Instruction.Complete (i : Instruction) : Prop :=
  ∀ o ∈ i.operands, o.Complete

namespace Instruction

variable {mnemonic : String} {operands : List Operand} {note : Note}

@[simp] theorem complete_of :
    (of mnemonic operands note).Complete ↔ ∀ o ∈ operands, o.Complete := Iff.rfl

@[simp] theorem complete_compact :
    (compact mnemonic operands note).Complete ↔ ∀ o ∈ operands, o.Complete := Iff.rfl

end Instruction

variable {format : IndexFormat} {opcode : Word}

theorem Branch.decode_complete (opcode : Word) (size : Size) (kind : Branch) :
    (kind.decode opcode size).Ensures fun i _ => i.Complete := by
  cases size <;> simp [Branch.decode]

theorem BlockMove.decode_complete (opcode : Word) (form : BlockMove) :
    (form.decode opcode).Ensures fun i _ => i.Complete := by
  cases form <;> simp [BlockMove.decode]

theorem CacheOperation.complete_instruction (opcode : Word) (op : CacheOperation) :
    (op.instruction opcode).Complete := by
  unfold instruction
  dsimp only
  repeat' split
  all_goals simp

theorem CoprocessorOperation.decode_complete {op : CoprocessorOperation}
    (hmodes : ∀ a ∈ (Family.coprocessor op).addresses opcode,
      ∃ mode, AddressMode.ofField? a.1 = some mode) :
    (op.decode format opcode).Ensures fun i _ => i.Complete := by
  cases op with
  | branch size => cases size <;> simp [CoprocessorOperation.decode]
  | trap size => cases size <;> simp [CoprocessorOperation.decode, Instruction.Complete]
  | general | loop => simp [CoprocessorOperation.decode]
  | restore | save =>
    have hfield := hmodes _ (.head _)
    simp only [CoprocessorOperation.decode, decode.operand, bind_eq, pure_eq_done, ensures_bind]
    exact (EffectiveAddress.decode_defined hfield).mono fun ea _ hea => by simp [hea]
  | set =>
    have hfield := hmodes _ (.head _)
    simp only [CoprocessorOperation.decode, decode.operand, bind_eq, pure_eq_done, ensures_bind]
    refine .of_forall fun predicate _ => .of_forall fun extension _ => ?_
    exact (EffectiveAddress.decode_defined hfield).mono fun ea _ hea => by simp [hea]

/-- **All operands are complete** if the addresses have modes and the instruction moves no list of
registers. The cases are grouped by what is read. -/
theorem Family.decode_complete {family : Family}
    (hmodes : ∀ a ∈ family.addresses opcode, ∃ mode, AddressMode.ofField? a.1 = some mode)
    (hmovem : ∀ form size, family ≠ .movem form size) :
    (family.decode format opcode).Ensures fun i _ => i.Complete := by
  cases family
  case movem form size => exact absurd rfl (hmovem form size)
  case branch kind size => exact kind.decode_complete opcode size
  case move16 form => exact form.decode_complete opcode
  case coprocessor op => exact CoprocessorOperation.decode_complete hmodes
  case cache op => exact op.complete_instruction opcode
  case exchange kind => cases kind <;> simp [decode]
  case trapcc size =>
    cases size with
    | none => simp [decode, Instruction.Complete]
    | some size => exact ensures_behind _ fun value => by simp
  case pack inMemory | unpack inMemory => cases inMemory <;> simp [decode, decode.pair]
  -- nothing is read but values
  case illegal | lineA | lineF | extendedRegisters | extendedMemory | cmpm | ext | extb | swap
      | shiftConstant | shiftRegister | rts | rte | rtr | rtm | trap | trapv | bkpt | reset | nop
      | moveq | moveToUsp | moveFromUsp | unlk | immediateToCcr | immediateToSr | dbra | dbcc | rtd
      | stop | movepFromMemory | movepToMemory | link | cas2 =>
    simp [decode]
  case movec =>
    intro extension
    show Instruction.Complete (.of _ (if _ then _ else _) _)
    split <;> simp
  case move size =>
    have hsource := hmodes (Opcode.field opcode, size) (.head _)
    have hdestination := hmodes (Opcode.destination opcode, size) (.tail _ (.head _))
    simp only [decode, decode.operand, bind_eq, pure_eq_done, ensures_bind]
    refine (EffectiveAddress.decode_defined hsource).mono fun source _ hs => ?_
    exact (EffectiveAddress.decode_defined hdestination).mono fun destination _ hd => by simp [hs, hd]
  -- an address
  case toData | fromData | toAddress | addq | subq | unary | testExtended | nbcd | tas | product
      | shiftMemory | bitRegister | scc | jmp | jsr | chk | movea | moveToCcr | moveFromCcr
      | moveToSr | moveFromSr | lea | pea =>
    have hfield := hmodes _ (.head _)
    simp only [decode, decode.operand, bind_eq, pure_eq_done, ensures_bind]
    exact (EffectiveAddress.decode_defined hfield).mono fun ea _ hea => by simp [hea]
  -- a value and an address
  case compareProgram | bitConstant | callm | bounds | cas =>
    have hfield := hmodes _ (.head _)
    simp only [decode, decode.operand, bind_eq, pure_eq_done, ensures_bind]
    refine .of_forall fun value _ => ?_
    exact (EffectiveAddress.decode_defined hfield).mono fun ea _ hea => by simp [hea]
  -- the other operands or their order depend on the value
  case immediate | divideLong | multiplyLong | bitField | moves =>
    have hfield := hmodes _ (.head _)
    simp only [decode, decode.operand, bind_eq, pure_eq_done, ensures_bind]
    refine .of_forall fun value _ => ?_
    refine (EffectiveAddress.decode_defined hfield).mono fun ea _ hea => ?_
    simp only [ensures_done]
    repeat' split
    all_goals simp [hea]

/-- The list of registers and the place they are moved to or from, in the order in which they are
shown. -/
def MultipleMove.operands (mask : Word) (place : Operand) : MultipleMove → List Operand
  | .push => [.registers mask.reverse, place]
  | .toMemory => [.registers mask, place]
  | .fromMemory => [place, .registers mask]

/-- An instruction that moves a list of registers shows the list and an address of a mode. -/
theorem Family.run_movem {form : MultipleMove} {size : Size} {c : Cursor}
    (hmode : ∃ mode, AddressMode.ofField? (Opcode.field opcode) = some mode) :
    ∃ ea, ea.Defined ∧
      ((Family.movem form size).decode format opcode |>.run c).1.operands =
        form.operands c.word (.address ea) := by
  let ea := ((EffectiveAddress.decode format (Opcode.field opcode) size).run (c.advance 1)).1
  have hea : ea.Defined := (EffectiveAddress.decode_defined hmode).run _
  refine ⟨ea, hea, ?_⟩
  simp only [decode, bind_eq, pure_eq_done, run_bind]
  cases form <;> rfl

namespace Cursor

/-- Whether the instruction under a cursor moves a list of registers that has none in it. -/
def MovesNothing (c : Cursor) : Prop :=
  (∃ form size, c.cpu.family c.word = .movem form size) ∧ (c.advance 1).word = 0

variable {c : Cursor}

theorem operands_of_movem {form : MultipleMove} {size : Size}
    (hfamily : c.cpu.family c.word = .movem form size) :
    ∃ ea, ea.Defined ∧
      c.decode.1.operands = form.operands (c.advance 1).word (.address ea) := by
  have hmode : ∃ mode, AddressMode.ofField? (Opcode.field c.word) = some mode := by
    refine c.cpu.exists_mode_of_mem_addresses c.word (a := (Opcode.field c.word, size)) ?_
    rw [hfamily]
    exact .head _
  unfold decode
  rw [hfamily]
  exact Family.run_movem hmode

/-- The addresses of an instruction have modes, and its operands are complete unless it moves no
registers. -/
theorem decode_operands (c : Cursor) :
    (∀ o ∈ c.decode.1.operands, o.Defined) ∧ (c.decode.1.Complete ↔ ¬ c.MovesNothing) := by
  by_cases hmovem : ∃ form size, c.cpu.family c.word = .movem form size
  · obtain ⟨form, size, hfamily⟩ := hmovem
    obtain ⟨ea, hea, hoperands⟩ := operands_of_movem hfamily
    have hnothing : c.MovesNothing ↔ (c.advance 1).word = 0 := and_iff_right ⟨form, size, hfamily⟩
    rw [Instruction.Complete, hoperands, hnothing]
    constructor
    · cases form <;> simp [MultipleMove.operands, Operand.Defined, hea]
    · cases form <;> simp [MultipleMove.operands, hea]
  · have hcomplete : c.decode.1.Complete :=
      (Family.decode_complete (fun _ => c.cpu.exists_mode_of_mem_addresses c.word)
        fun form size h => hmovem ⟨form, size, h⟩).run (c.advance 1)
    exact ⟨fun o ho => (hcomplete o ho).defined, iff_of_true hcomplete fun h => hmovem h.1⟩

/-- An instruction that moves no registers has two operands, and nothing is shown for one of
them. -/
theorem operands_of_movesNothing (h : c.MovesNothing) :
    ∃ a b, c.decode.1.operands = [a, b] ∧ (a = .registers 0 ∨ b = .registers 0) := by
  obtain ⟨⟨form, size, hfamily⟩, hmask⟩ := h
  obtain ⟨ea, -, hoperands⟩ := operands_of_movem hfamily
  rw [hmask] at hoperands
  have hreverse : (0 : Word).reverse = 0 := by decide
  cases form with
  | push => exact ⟨_, _, hoperands, .inl (congrArg _ hreverse)⟩
  | toMemory => exact ⟨_, _, hoperands, .inl rfl⟩
  | fromMemory => exact ⟨_, _, hoperands, .inr rfl⟩

end Cursor

end Disasm68
