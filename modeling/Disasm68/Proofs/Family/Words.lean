import Disasm68.Family.Decode
import Disasm68.Proofs.Operand.EffectiveAddress

/-!
# How many words follow an opcode

The longest instructions are moves between two addresses in the full format, with two long
displacements each: ten words follow their opcode, and ten is the bound for every family
(`Family.decode_words_le`). Everything else has one address at most, behind two words at most.
-/

namespace Disasm68

open Reader

/-- A displacement takes two words at most. -/
theorem Branch.decode_words_le (opcode : Word) (size : Size) (kind : Branch) :
    (kind.decode opcode size).Ensures fun _ n => n ≤ 2 := by
  cases size <;> simp [Branch.decode]

/-- A block move names one place in its opcode, the other takes two words at most. -/
theorem BlockMove.decode_words_le (opcode : Word) (form : BlockMove) :
    (form.decode opcode).Ensures fun _ n => n ≤ 2 := by
  cases form <;> simp [BlockMove.decode, next]

/-- A coprocessor instruction has two words of its own and an address at most. -/
theorem CoprocessorOperation.decode_words_le (format : IndexFormat) (opcode : Word)
    (op : CoprocessorOperation) : (op.decode format opcode).Ensures fun _ n => n ≤ 7 := by
  have address (make : EffectiveAddress → Instruction) :
      ((decode.operand format opcode).bind fun ea => .done (make ea)).Ensures fun _ n => n ≤ 5 :=
    bind_words_le (EffectiveAddress.decode_words_le ..) (fun _ => Nat.le_refl 0) (Nat.le_refl 5)
  cases op with
  | branch size => cases size <;> simp [CoprocessorOperation.decode]
  | loop | general => simp [CoprocessorOperation.decode, next]
  | restore | save => exact (address _).mono fun _ n hn => by omega
  | set =>
    intro predicate extension
    exact (address _).mono fun _ n hn => by omega
  | trap size =>
    cases size with
    | none => simp [CoprocessorOperation.decode]
    | some size => cases size <;> simp [CoprocessorOperation.decode, next]

/-- **Ten words at most follow an opcode.** The cases are grouped by what is read. -/
theorem Family.decode_words_le (format : IndexFormat) (opcode : Word) (family : Family) :
    (family.decode format opcode).Ensures fun _ n => n ≤ 10 := by
  have address (field : BitVec 6) (size : Size) (make : EffectiveAddress → Instruction) :
      ((EffectiveAddress.decode format field size).bind fun ea => .done (make ea)).Ensures
        fun _ n => n ≤ 5 :=
    bind_words_le (EffectiveAddress.decode_words_le ..) (fun _ => Nat.le_refl 0) (Nat.le_refl 5)
  have value (size : Size) (make : Datum → Instruction) :
      ((next size).bind fun v => .done (make v)).Ensures fun _ n => n ≤ 2 :=
    bind_words_le (next_words_le size) (fun _ => Nat.le_refl 0) (Nat.le_refl 2)
  cases family
  case branch kind size => exact (kind.decode_words_le opcode size).mono fun _ n hn => by omega
  case move16 form => exact (form.decode_words_le opcode).mono fun _ n hn => by omega
  case coprocessor op => exact (op.decode_words_le format opcode).mono fun _ n hn => by omega
  case move size =>
    exact bind_words_le (k := 5) (EffectiveAddress.decode_words_le ..) (fun _ => address _ size _)
      (by decide)
  case exchange kind => cases kind <;> exact Nat.zero_le 10
  case trapcc size =>
    cases size with
    | none => exact Nat.zero_le 10
    | some size => exact (value size _).mono fun _ n hn => by omega
  -- nothing is read
  case illegal | lineA | lineF | extendedRegisters | extendedMemory | cmpm | ext | extb | swap
      | shiftConstant | shiftRegister | rts | rte | rtr | rtm | trap | trapv | bkpt | reset | nop
      | moveq | moveToUsp | moveFromUsp | unlk | cache =>
    exact Nat.zero_le 10
  -- a word or a long
  case dbra | dbcc | movec | movepFromMemory | movepToMemory | cas2 => simp [Family.decode]
  -- a value
  case immediateToCcr | immediateToSr | pack | unpack | rtd | stop | link =>
    exact (value _ _).mono fun _ n hn => by omega
  -- an address
  case toData | fromData | toAddress | addq | subq | unary | testExtended | nbcd | tas | product
      | shiftMemory | bitRegister | scc | jmp | jsr | chk | movea | moveToCcr | moveFromCcr
      | moveToSr | moveFromSr | lea | pea =>
    exact (address _ _ _).mono fun _ n hn => by omega
  -- a value and an address
  case immediate | compareProgram | bitConstant | callm =>
    exact bind_words_le (k := 5) (next_words_le _) (fun _ => address _ _ _) (by decide)
  -- a word and an address
  case divideLong | multiplyLong | bitField | bounds | movem | moves | cas =>
    intro extension
    exact (address _ _ _).mono fun _ n hn => by omega

end Disasm68
