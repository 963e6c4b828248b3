import Disasm68.Disassembly
import Disasm68.Proofs.Family.Mnemonic
import Disasm68.Proofs.Text.Composed

/-!
# How mnemonics are spelled

Mnemonics are written with small letters, digits, the dot in front of a size and the question mark
of an undefined condition (`Family.decode_plain`). They are never empty, so all of them are spelled
(`Cursor.spelled_mnemonic`).
-/

namespace Disasm68

open Reader Text

namespace Mnemonic

/-- The characters that mnemonics are written with. -/
def isLetter (c : Char) : Bool :=
  c.isLower || c.isDigit || c = '.' || c = '?'

/-- A text of characters of mnemonics. -/
abbrev Plain (s : String) : Prop :=
  Written isLetter s

end Mnemonic

open Mnemonic (Plain)

/-! ## The parts of mnemonics -/

@[simp] theorem Size.plain_suffix (size : Size) : Plain size.suffix := by
  cases size <;> decide

@[simp] theorem Condition.plain_suffix (condition : Condition) : Plain condition.suffix := by
  cases condition <;> decide

@[simp] theorem Coprocessor.plain_condition (bits : BitVec 6) :
    Plain (Coprocessor.condition bits) := by
  revert bits
  decide +kernel

@[simp] theorem Opcode.plain_coprocessor (opcode : Word) : Plain (Opcode.coprocessor opcode) :=
  written_digits (by decide) (by decide) _

@[simp] theorem Extension.plain_sign (w : Word) : Plain (Extension.sign w) := by
  unfold Extension.sign
  split <;> decide

@[simp] theorem Arithmetic.plain_name (op : Arithmetic) : Plain op.name := by
  cases op <;> decide

@[simp] theorem Extended.plain_mnemonic (op : Extended) (size : Size) :
    Plain (op.mnemonic size) := by
  cases op <;> cases size <;> decide

@[simp] theorem Unary.plain_name (op : Unary) : Plain op.name := by
  cases op <;> decide

@[simp] theorem Product.plain_name (op : Product) : Plain op.name := by
  cases op <;> decide

@[simp] theorem Shift.plain_name (op : Shift) : Plain op.name := by
  cases op <;> decide

@[simp] theorem BitOperation.plain_name (op : BitOperation) : Plain op.name := by
  cases op <;> decide

@[simp] theorem FieldOperation.plain_name (op : FieldOperation) : Plain op.name := by
  cases op <;> decide

@[simp] theorem CacheOperation.plain_name (op : CacheOperation) : Plain op.name := by
  cases op <;> decide

/-! ## Mnemonics -/

theorem Branch.decode_plain (opcode : Word) (size : Size) (kind : Branch) :
    (kind.decode opcode size).Ensures fun i _ => Plain i.mnemonic := by
  cases kind <;> cases size <;> simp +decide [Branch.decode]

theorem BlockMove.decode_plain (opcode : Word) (form : BlockMove) :
    (form.decode opcode).Ensures fun i _ => Plain i.mnemonic := by
  cases form <;> simp +decide [BlockMove.decode]

theorem CoprocessorOperation.decode_plain (format : IndexFormat) (opcode : Word)
    (op : CoprocessorOperation) :
    (op.decode format opcode).Ensures fun i _ => Plain i.mnemonic := by
  have hid : Plain (decode.id opcode) := Opcode.plain_coprocessor opcode
  have hname (w : Word) : Plain (decode.name w) := Coprocessor.plain_condition _
  cases op with
  | branch size =>
    cases size <;> simp +decide [CoprocessorOperation.decode, hid]
  | trap size =>
    cases size <;> simp +decide [CoprocessorOperation.decode, hid, hname]
  | general => exact ensures_behind _ fun _ => written_append.mpr ⟨hid, by decide⟩
  | restore | save => exact ensures_behind _ fun _ => written_append.mpr ⟨hid, by decide⟩
  | loop =>
    intro predicate extension displacement
    exact written_append.mpr ⟨written_append.mpr ⟨hid, by decide⟩, hname _⟩
  | set =>
    refine ensures_behind _ fun predicate => ensures_behind _ fun extension => ?_
    refine ensures_behind _ fun _ => ?_
    exact written_append.mpr ⟨written_append.mpr ⟨hid, by decide⟩, hname _⟩

theorem CacheOperation.plain_instruction (opcode : Word) (op : CacheOperation) :
    Plain (op.instruction opcode).mnemonic := by
  unfold instruction
  dsimp only
  repeat' split
  all_goals simp +decide

/-- **Every mnemonic is plain.** The cases are grouped by what is read. -/
theorem Family.decode_plain (format : IndexFormat) (opcode : Word) (family : Family) :
    (family.decode format opcode).Ensures fun i _ => Plain i.mnemonic := by
  cases family
  case branch kind size => exact kind.decode_plain opcode size
  case move16 form => exact form.decode_plain opcode
  case coprocessor op => exact op.decode_plain format opcode
  case cache op => exact op.plain_instruction opcode
  case exchange kind => cases kind <;> simp +decide [decode]
  case trapcc size => cases size <;> simp +decide [decode, decode.condition]
  -- nothing is read
  case illegal | lineA | lineF | extendedRegisters | extendedMemory | cmpm | ext | extb | swap
      | shiftConstant | shiftRegister | rts | rte | rtr | rtm | trap | trapv | bkpt | reset | nop
      | moveq | moveToUsp | moveFromUsp | unlk =>
    simp +decide [decode]
  -- one value or address is read
  case toData | fromData | toAddress | immediateToCcr | immediateToSr | addq | subq | unary
      | testExtended | nbcd | tas | product | pack | unpack | shiftMemory | bitRegister | dbra
      | dbcc | scc | jmp | jsr | rtd | stop | chk | movea | moveToCcr | moveFromCcr | moveToSr
      | moveFromSr | movec | movepFromMemory | movepToMemory | lea | pea | link | cas2 =>
    refine ensures_behind _ fun _ => ?_
    simp +decide [decode.condition]
  -- and another address behind it
  case immediate | compareProgram | bitConstant | bitField | callm | move | movem | moves | cas
      | bounds | divideLong | multiplyLong =>
    refine ensures_behind _ fun _ => ensures_behind _ fun _ => ?_
    simp +decide
    repeat' split
    all_goals simp +decide

/-- **Every mnemonic is spelled**, whatever the words of the instruction are. -/
theorem Cursor.spelled_mnemonic (c : Cursor) :
    Spelled Mnemonic.isLetter c.decode.1.mnemonic where
  ne_empty := ((c.cpu.family c.word).decode_mnemonic_ne_empty c.cpu.indexFormat c.word).run
    (c.advance 1)
  written := ((c.cpu.family c.word).decode_plain c.cpu.indexFormat c.word).run (c.advance 1)

end Disasm68
