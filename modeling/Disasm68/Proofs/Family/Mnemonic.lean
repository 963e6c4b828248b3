import Disasm68.Family.Decode
import Disasm68.Proofs.Instruction
import Disasm68.Proofs.Reader.Ensures

/-!
# Mnemonics

Words that are no instructions are shown with the directive `dc.w`. No instruction has a mnemonic
that begins like it (`Family.decode_isCode`), so the first two characters of a line tell which of
the two it is.
-/

namespace Disasm68

open Reader

/-- Whether a mnemonic has two characters at least and does not begin like a directive for data. -/
def Mnemonic.isCode (mnemonic : String) : Bool :=
  match mnemonic.toList with
  | 'd' :: 'c' :: _ => false
  | _ :: _ :: _ => true
  | _ => false

namespace Mnemonic

/-- The first two characters decide. -/
@[simp] theorem isCode_append {s : String} (h : isCode s) (t : String) : isCode (s ++ t) := by
  unfold isCode at h ⊢
  rw [String.toList_append]
  split at h <;> simp_all

@[simp] theorem isCode_arithmetic (op : Arithmetic) : isCode op.name := by
  cases op <;> decide

@[simp] theorem isCode_extended (op : Extended) (size : Size) : isCode (op.mnemonic size) := by
  cases op <;> cases size <;> decide

@[simp] theorem isCode_unary (op : Unary) : isCode op.name := by
  cases op <;> decide

@[simp] theorem isCode_product (op : Product) : isCode op.name := by
  cases op <;> decide

@[simp] theorem isCode_shift (op : Shift) : isCode op.name := by
  cases op <;> decide

@[simp] theorem isCode_bitOperation (op : BitOperation) : isCode op.name := by
  cases op <;> decide

@[simp] theorem isCode_fieldOperation (op : FieldOperation) : isCode op.name := by
  cases op <;> decide

@[simp] theorem isCode_cacheOperation (op : CacheOperation) : isCode op.name := by
  cases op <;> decide

/-- A letter and a condition are two characters. -/
@[simp] theorem isCode_branch (condition : Condition) : isCode ("b" ++ condition.suffix) := by
  cases condition <;> decide

@[simp] theorem isCode_set (condition : Condition) : isCode ("s" ++ condition.suffix) := by
  cases condition <;> decide

/-- The number of a coprocessor is a digit, so its mnemonics do not begin with a `d`. -/
theorem isCode_coprocessor (opcode : Word) {t : String} (h : t ≠ "") :
    isCode (Opcode.coprocessor opcode ++ t) := by
  have hdigit : ∀ n : BitVec 3, (toString n.toNat).toList = [Nat.digitChar n.toNat] ∧
      Nat.digitChar n.toNat ≠ 'd' := by decide
  obtain ⟨hid, hd⟩ := hdigit (Opcode.x opcode)
  unfold isCode Opcode.coprocessor
  rw [String.toList_append, hid]
  cases ht : t.toList with
  | nil => exact absurd (String.toList_eq_nil_iff.mp ht) h
  | cons c cs => simp [hd]

end Mnemonic

theorem Branch.decode_isCode (opcode : Word) (size : Size) (kind : Branch) :
    (kind.decode opcode size).Ensures fun i _ => Mnemonic.isCode i.mnemonic := by
  cases kind <;> cases size <;> simp +decide [Branch.decode]

theorem BlockMove.decode_isCode (opcode : Word) (form : BlockMove) :
    (form.decode opcode).Ensures fun i _ => Mnemonic.isCode i.mnemonic := by
  cases form <;> simp +decide [BlockMove.decode]

theorem CoprocessorOperation.decode_isCode (format : IndexFormat) (opcode : Word)
    (op : CoprocessorOperation) :
    (op.decode format opcode).Ensures fun i _ => Mnemonic.isCode i.mnemonic := by
  have hid (t : String) (h : t ≠ "") : Mnemonic.isCode (decode.id opcode ++ t) :=
    Mnemonic.isCode_coprocessor opcode h
  cases op with
  | branch size =>
    have hb := hid "b" (by decide)
    cases size <;> simp [CoprocessorOperation.decode, hb]
  | trap size =>
    have htrap := hid "trap" (by decide)
    cases size <;> simp [CoprocessorOperation.decode, htrap]
  | general => exact ensures_behind _ fun _ => hid "gen" (by decide)
  | restore => exact ensures_behind _ fun _ => hid "restore" (by decide)
  | save => exact ensures_behind _ fun _ => hid "save" (by decide)
  | loop => exact fun _ _ _ => Mnemonic.isCode_append (hid "db" (by decide)) _
  | set =>
    refine ensures_behind _ fun predicate => ensures_behind _ fun extension => ?_
    exact ensures_behind _ fun _ => Mnemonic.isCode_append (hid "s" (by decide)) _

/-- An operation on the caches has one letter more for its scope, unless that is illegal. -/
theorem CacheOperation.isCode_instruction (opcode : Word) (op : CacheOperation) :
    Mnemonic.isCode (op.instruction opcode).mnemonic := by
  unfold instruction
  dsimp only
  split
  · simp
  · split
    · simp
    · split <;> simp

namespace Family

/-- Whether the words of a family are shown as data. -/
def isData : Family → Bool
  | .illegal | .lineA | .lineF => true
  | _ => false

/-- **An instruction never looks like data.** The cases are grouped by what is read. -/
theorem decode_isCode (format : IndexFormat) (opcode : Word) {family : Family}
    (h : family.isData = false) :
    (family.decode format opcode).Ensures fun i _ => Mnemonic.isCode i.mnemonic := by
  cases family
  case illegal | lineA | lineF => cases h
  case branch kind size => exact kind.decode_isCode opcode size
  case move16 form => exact form.decode_isCode opcode
  case coprocessor op => exact op.decode_isCode format opcode
  case exchange kind => cases kind <;> simp +decide [decode]
  -- nothing is read
  case extendedRegisters | extendedMemory | cmpm | ext | extb | swap | shiftConstant | shiftRegister
      | rts | rte | rtr | rtm | trap | trapv | bkpt | reset | nop | moveq | moveToUsp | moveFromUsp
      | unlk =>
    simp +decide [decode]
  -- the mnemonic does not depend on what is read
  case toData | fromData | toAddress | immediateToCcr | immediateToSr | addq | subq | unary
      | testExtended | nbcd | tas | product | pack | unpack | shiftMemory | bitRegister | dbra
      | dbcc | scc | jmp | jsr | rtd | stop | chk | movea | moveToCcr | moveFromCcr | moveToSr
      | moveFromSr | movec | movepFromMemory | movepToMemory | lea | pea | link | cas2 =>
    refine ensures_behind _ fun _ => ?_
    simp +decide [decode.condition]
  case immediate | compareProgram | bitConstant | bitField | callm | move | movem | moves | cas =>
    refine ensures_behind _ fun _ => ensures_behind _ fun _ => ?_
    simp +decide
  case trapcc size => cases size <;> simp +decide [decode]
  case cache op => exact op.isCode_instruction opcode
  -- the mnemonic depends on the extension word
  case divideLong =>
    refine ensures_behind _ fun extension => ensures_behind _ fun _ => ?_
    simp only [pure_eq_done, ensures_done]
    split
    · simp +decide
    · split <;> simp +decide
  case multiplyLong =>
    refine ensures_behind _ fun extension => ensures_behind _ fun _ => ?_
    simp only [pure_eq_done, ensures_done]
    split <;> simp +decide
  case bounds =>
    refine ensures_behind _ fun extension => ensures_behind _ fun _ => ?_
    simp only [pure_eq_done, ensures_done, Instruction.mnemonic_of]
    split <;> simp +decide

/-- No family leaves the mnemonic out. -/
theorem decode_mnemonic_ne_empty (format : IndexFormat) (opcode : Word) (family : Family) :
    (family.decode format opcode).Ensures fun i _ => i.mnemonic ≠ "" := by
  cases hdata : family.isData with
  | false =>
    refine (decode_isCode format opcode hdata).mono fun i _ hcode hempty => ?_
    rw [hempty] at hcode
    exact absurd hcode (by decide)
  | true =>
    cases family
    case illegal | lineA | lineF => simp [decode]
    all_goals cases hdata

end Family

end Disasm68
