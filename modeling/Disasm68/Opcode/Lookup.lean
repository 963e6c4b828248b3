import Disasm68.Opcode.Table

/-!
# Looking up opcodes

Of the patterns that accept an opcode the most specific one wins, and among equally specific ones
the first in the table. `OpcodeTable.resolve` finds it in one pass; `Pattern.ofOpcode` applies it to
the table and answers the illegal pattern where nothing accepts. What is found is in the table and
accepts the opcode (`Pattern.ofOpcode_cases`).
-/

namespace Disasm68

namespace OpcodeTable

/-- The better of the pattern found so far and a later one, which has to fix more positions. -/
def better (best : Option Pattern) (p : Pattern) : Option Pattern :=
  match best with
  | none => some p
  | some b => if b.specificity < p.specificity then some p else some b

/-- The most specific pattern of a list that accepts an opcode, the first of several. -/
def resolve (rows : List Pattern) (opcode : Word) : Option Pattern :=
  (rows.filter (·.accepts opcode)).foldl better none

/-- The better of two patterns is one of them. -/
theorem eq_of_better {best : Option Pattern} {p q : Pattern} (h : better best p = some q) :
    best = some q ∨ p = q := by
  cases best with
  | none => exact .inr (Option.some.inj h)
  | some b =>
    simp only [better] at h
    split at h
    · exact .inr (Option.some.inj h)
    · exact .inl h

/-- The best pattern of a list is the one to start with or in the list. -/
theorem mem_of_foldl_better {rows : List Pattern} {best : Option Pattern} {q : Pattern}
    (h : rows.foldl better best = some q) : best = some q ∨ q ∈ rows := by
  induction rows generalizing best with
  | nil => exact .inl h
  | cons p rows ih =>
    rcases ih h with hbest | hmem
    · rcases eq_of_better hbest with hbest | rfl
      · exact .inl hbest
      · exact .inr List.mem_cons_self
    · exact .inr (List.mem_cons_of_mem _ hmem)

/-- A pattern that is found comes from the list and accepts the opcode. -/
theorem mem_of_resolve {rows : List Pattern} {opcode : Word} {q : Pattern}
    (h : resolve rows opcode = some q) : q ∈ rows ∧ q.accepts opcode = true :=
  List.mem_filter.mp ((mem_of_foldl_better h).resolve_left nofun)

end OpcodeTable

/-- The pattern an opcode belongs to. -/
def Pattern.ofOpcode (opcode : Word) : Pattern :=
  (OpcodeTable.resolve OpcodeTable.patterns opcode).getD .illegal

/-- A pattern of an opcode is illegal or comes from the table and accepts the opcode. -/
theorem Pattern.ofOpcode_cases (opcode : Word) :
    Pattern.ofOpcode opcode = .illegal ∨
      Pattern.ofOpcode opcode ∈ OpcodeTable.patterns ∧
        (Pattern.ofOpcode opcode).accepts opcode = true := by
  unfold Pattern.ofOpcode
  cases h : OpcodeTable.resolve OpcodeTable.patterns opcode with
  | none => exact .inl rfl
  | some p => exact .inr (OpcodeTable.mem_of_resolve h)

/-- All opcode words. -/
def Opcode.all : List Word :=
  (List.range 0x10000).map (BitVec.ofNat 16)

/-- The number of opcode words a list of patterns gives to an instruction. -/
def OpcodeTable.definedCount (rows : List Pattern) : Nat :=
  Opcode.all.countP fun opcode => !((resolve rows opcode).getD .illegal).isIllegal

namespace Cpu

/-- The family an opcode belongs to on a processor. An instruction the processor lacks is illegal
there. -/
def family (cpu : Cpu) (opcode : Word) : Family :=
  let p := Pattern.ofOpcode opcode
  if p.availability.allows cpu then p.family else .illegal

/-- Whether an opcode starts an instruction of a processor. The words of lines A and F count. -/
def isValid (cpu : Cpu) (opcode : Word) : Bool :=
  cpu.family opcode ≠ .illegal

/-- The number of opcode words that start an instruction of a processor. -/
def validCount (cpu : Cpu) : Nat :=
  Opcode.all.countP cpu.isValid

end Cpu

end Disasm68
