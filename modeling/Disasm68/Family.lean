import Disasm68.Width

/-!
# Instruction families

A family is what an opcode pattern fixes of an instruction: the operation, its size and the form of
its operands. Registers, conditions and effective addresses are still to be read from the opcode.

`Family.step` is the hint a debugger needs for stepping: whether the instruction may call something
that comes back, or goes back itself.
-/

namespace Disasm68

/-- Operations on two operands. -/
inductive Arithmetic where
  | add
  | sub
  | and
  | or
  | eor
  | cmp
  deriving DecidableEq, Repr

namespace Arithmetic

/-- The mnemonic without a suffix. -/
def name : Arithmetic → String
  | .add => "add"
  | .sub => "sub"
  | .and => "and"
  | .or => "or"
  | .eor => "eor"
  | .cmp => "cmp"

/-- The immediates of logical operations are bit patterns, those of the others are numbers. -/
def isLogical : Arithmetic → Bool
  | .and | .or | .eor => true
  | .add | .sub | .cmp => false

end Arithmetic

/-- Operations that carry into the next digit or long. -/
inductive Extended where
  | addx
  | subx
  | abcd
  | sbcd
  deriving DecidableEq, Repr

/-- The mnemonic; decimal operations work on bytes only and do not say so. -/
def Extended.mnemonic (size : Size) : Extended → String
  | .addx => "addx" ++ size.suffix
  | .subx => "subx" ++ size.suffix
  | .abcd => "abcd"
  | .sbcd => "sbcd"

/-- Operations on one operand. -/
inductive Unary where
  | clr
  | neg
  | negx
  | not
  | tst
  deriving DecidableEq, Repr

/-- The mnemonic without a suffix. -/
def Unary.name : Unary → String
  | .clr => "clr"
  | .neg => "neg"
  | .negx => "negx"
  | .not => "not"
  | .tst => "tst"

/-- Multiplication and division of words. -/
inductive Product where
  | divs
  | divu
  | muls
  | mulu
  deriving DecidableEq, Repr

/-- The mnemonic without a suffix. -/
def Product.name : Product → String
  | .divs => "divs"
  | .divu => "divu"
  | .muls => "muls"
  | .mulu => "mulu"

/-- Shifts and rotations. -/
inductive Shift where
  | asr
  | asl
  | lsr
  | lsl
  | roxr
  | roxl
  | ror
  | rol
  deriving DecidableEq, Repr

/-- The mnemonic without a suffix. -/
def Shift.name : Shift → String
  | .asr => "asr"
  | .asl => "asl"
  | .lsr => "lsr"
  | .lsl => "lsl"
  | .roxr => "roxr"
  | .roxl => "roxl"
  | .ror => "ror"
  | .rol => "rol"

/-- Operations on one bit. -/
inductive BitOperation where
  | btst
  | bchg
  | bclr
  | bset
  deriving DecidableEq, Repr

/-- The mnemonic. -/
def BitOperation.name : BitOperation → String
  | .btst => "btst"
  | .bchg => "bchg"
  | .bclr => "bclr"
  | .bset => "bset"

/-- Operations on a field of bits. -/
inductive FieldOperation where
  | bfchg
  | bfclr
  | bfexts
  | bfextu
  | bfffo
  | bfins
  | bfset
  | bftst
  deriving DecidableEq, Repr

namespace FieldOperation

/-- The mnemonic. -/
def name : FieldOperation → String
  | .bfchg => "bfchg"
  | .bfclr => "bfclr"
  | .bfexts => "bfexts"
  | .bfextu => "bfextu"
  | .bfffo => "bfffo"
  | .bfins => "bfins"
  | .bfset => "bfset"
  | .bftst => "bftst"

/-- Whether the field is taken to or from a data register. -/
def hasRegister : FieldOperation → Bool
  | .bfexts | .bfextu | .bfffo | .bfins => true
  | .bfchg | .bfclr | .bfset | .bftst => false

end FieldOperation

/-- Which of the two kinds of registers an exchange is between. -/
inductive Exchange where
  | data
  | addresses
  | mixed
  deriving DecidableEq, Repr

/-- Branches with a displacement. -/
inductive Branch where
  | conditional
  | always
  | subroutine
  deriving DecidableEq, Repr

/-- Where a list of registers is moved. -/
inductive MultipleMove where
  /-- To memory below an address; the mask is stored in reverse. -/
  | push
  | toMemory
  | fromMemory
  deriving DecidableEq, Repr

/-- How a block of sixteen bytes is moved. -/
inductive BlockMove where
  | between
  | incrementToAbsolute
  | absoluteToIncrement
  | indirectToAbsolute
  | absoluteToIndirect
  deriving DecidableEq, Repr

/-- Instructions that a coprocessor carries out. -/
inductive CoprocessorOperation where
  | branch (size : Size)
  | loop
  | general
  | restore
  | save
  | set
  | trap (operand : Option Size)
  deriving DecidableEq, Repr

/-- Operations on the caches. -/
inductive CacheOperation where
  | cinv
  | cpush
  deriving DecidableEq, Repr

/-- The mnemonic without the letter of its scope. -/
def CacheOperation.name : CacheOperation → String
  | .cinv => "cinv"
  | .cpush => "cpush"

/-- What an opcode pattern fixes of an instruction. -/
inductive Family where
  /-- No instruction. -/
  | illegal
  /-- A word of line A, left to an emulator. -/
  | lineA
  /-- A word of line F that no coprocessor instruction uses. -/
  | lineF
  /-- From an effective address to a data register. -/
  | toData (op : Arithmetic) (size : Size)
  /-- From a data register to an effective address. -/
  | fromData (op : Arithmetic) (size : Size)
  /-- From an effective address to an address register. -/
  | toAddress (op : Arithmetic) (size : Size)
  | immediate (op : Arithmetic) (size : Size)
  /-- Comparison of an immediate with an operand relative to the program counter. -/
  | compareProgram (size : Size)
  | immediateToCcr (op : Arithmetic)
  | immediateToSr (op : Arithmetic)
  | addq (size : Size)
  | subq (size : Size)
  | extendedRegisters (op : Extended) (size : Size)
  | extendedMemory (op : Extended) (size : Size)
  | cmpm (size : Size)
  | unary (op : Unary) (size : Size)
  /-- A test of an operand that only later processors can test. -/
  | testExtended (size : Size)
  | nbcd
  | tas
  | ext (size : Size)
  | extb
  | swap
  | exchange (kind : Exchange)
  | product (op : Product)
  | divideLong
  | multiplyLong
  | pack (inMemory : Bool)
  | unpack (inMemory : Bool)
  /-- Shift of a data register by a constant. -/
  | shiftConstant (op : Shift) (size : Size)
  /-- Shift of a data register by a data register. -/
  | shiftRegister (op : Shift) (size : Size)
  /-- Shift of a word in memory by one. -/
  | shiftMemory (op : Shift)
  /-- A bit with its number in a data register. -/
  | bitRegister (op : BitOperation)
  /-- A bit with a constant number. -/
  | bitConstant (op : BitOperation)
  | bitField (op : FieldOperation)
  | branch (kind : Branch) (size : Size)
  /-- A loop that ends only with its counter. -/
  | dbra
  | dbcc
  | scc
  | trapcc (operand : Option Size)
  | jmp
  | jsr
  | rts
  | rte
  | rtr
  | rtd
  | rtm
  | callm
  | trap
  | trapv
  | chk (size : Size)
  /-- A check or comparison against two bounds. -/
  | bounds (size : Size)
  | bkpt
  | stop
  | reset
  | nop
  | move (size : Size)
  | movea (size : Size)
  | moveq
  | moveToCcr
  | moveFromCcr
  | moveToSr
  | moveFromSr
  | moveToUsp
  | moveFromUsp
  | movec
  | movem (form : MultipleMove) (size : Size)
  | movepFromMemory (size : Size)
  | movepToMemory (size : Size)
  | moves (size : Size)
  | move16 (form : BlockMove)
  | lea
  | pea
  | link (size : Size)
  | unlk
  | cas (size : Size)
  | cas2 (size : Size)
  | coprocessor (op : CoprocessorOperation)
  | cache (op : CacheOperation)
  deriving DecidableEq, Repr

/-- A debugger's stepping hint. -/
inductive Step where
  | plain
  /-- The instruction may call a subroutine or trap, and comes back. -/
  | over
  /-- The instruction returns. -/
  | out
  deriving DecidableEq, Repr

/-- The stepping hint of a family. -/
def Family.step : Family → Step
  | .branch .subroutine _ | .jsr | .dbra | .dbcc | .chk _ | .trapcc _ | .trapv => .over
  | .rts | .rte | .rtr | .rtd | .rtm => .out
  | _ => .plain

end Disasm68
