import Disasm68.Cpu

/-!
# Availability of instructions

An instruction is either available from some generation on or on one generation alone. Both are
read as the set of generations that have the instruction; `Availability.contains` is inclusion of
these sets, so two availabilities that are written differently may contain each other.
-/

namespace Disasm68

/-- The generations that have an instruction. -/
inductive Availability where
  | since (generation : Generation)
  | only (generation : Generation)
  deriving DecidableEq, Repr

namespace Availability

/-- Available on every processor. -/
def always : Availability := .since .g68000

/-- Whether a generation has the instruction. -/
def has : Availability → Generation → Bool
  | .since first, g => first.rank ≤ g.rank
  | .only one, g => g = one

/-- Whether a processor has the instruction. -/
def allows (a : Availability) (cpu : Cpu) : Bool :=
  a.has cpu.generation

/-- Whether every generation of the second set belongs to the first. -/
def contains (a b : Availability) : Bool :=
  Generation.all.all fun g => !b.has g || a.has g

end Availability

end Disasm68
