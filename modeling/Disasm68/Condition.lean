/-!
# Conditions

Four bits of an opcode name one of the sixteen conditions of the processor. A coprocessor has
conditions of its own, named by six bits of which only the lower half of the range is defined.
-/

namespace Disasm68

/-- A condition, named by its suffix. -/
inductive Condition where
  | t
  | f
  | hi
  | ls
  | cc
  | cs
  | ne
  | eq
  | vc
  | vs
  | pl
  | mi
  | ge
  | lt
  | gt
  | le
  deriving DecidableEq, Repr

namespace Condition

/-- All conditions, in the order of their encodings. -/
def all : List Condition :=
  [.t, .f, .hi, .ls, .cc, .cs, .ne, .eq, .vc, .vs, .pl, .mi, .ge, .lt, .gt, .le]

/-- The condition four bits encode. -/
def ofBits (bits : BitVec 4) : Condition :=
  all.get ⟨bits.toNat, by simpa [all] using bits.isLt⟩

/-- The suffix of a mnemonic. -/
def suffix : Condition → String
  | .t => "t"
  | .f => "f"
  | .hi => "hi"
  | .ls => "ls"
  | .cc => "cc"
  | .cs => "cs"
  | .ne => "ne"
  | .eq => "eq"
  | .vc => "vc"
  | .vs => "vs"
  | .pl => "pl"
  | .mi => "mi"
  | .ge => "ge"
  | .lt => "lt"
  | .gt => "gt"
  | .le => "le"

end Condition

namespace Coprocessor

/-- The conditions of a coprocessor, in the order of their encodings. -/
def conditions : List String :=
  ["f", "eq", "ogt", "oge", "olt", "ole", "ogl", "or", "un", "ueq", "ugt", "uge", "ult", "ule",
    "ne", "t", "sf", "seq", "gt", "ge", "lt", "le", "gl", "gle", "ngle", "ngl", "nle", "nlt",
    "nge", "ngt", "sne", "st"]

/-- The suffix of a coprocessor mnemonic; undefined conditions are marked by a question mark. -/
def condition (bits : BitVec 6) : String :=
  (conditions[bits.toNat]?).getD "?"

end Coprocessor

end Disasm68
