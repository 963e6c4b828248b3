import Disasm68.Opcode.Lookup

/-!
# Which processors have an opcode

The processors stand in a line by what they execute. The table makes an instruction available from
some place in the line on, with two exceptions: `callm` and `rtm` exist on the 68020 alone
(`OpcodeTable.availability_patterns`). A processor therefore executes what an older one does, apart
from these two (`Cpu.isValid_of_level_le`).
-/

namespace Disasm68

/-- The place of a processor in the line; some differ from one another in the address bus only. -/
def Cpu.level : Cpu → Nat
  | .m68000 | .m68008 => 0
  | .m68010 => 1
  | .m68ec020 | .m68020 => 2
  | .m68030 => 3
  | .m68040 => 4

/-- The place in the line at which a generation begins. -/
def Generation.level : Generation → Nat
  | .g68000 | .g68008 => 0
  | .g68010 => 1
  | .g68020 => 2
  | .g68030 => 3
  | .g68040 => 4

/-- The instructions of the 68020 that later processors lack. -/
def Family.isModuleCall : Family → Bool
  | .callm | .rtm => true
  | _ => false

/-- The generations in which instructions are added. The 68008 adds none to the 68000. -/
def Availability.isUpward : Availability → Bool
  | .since .g68008 | .only _ => false
  | .since _ => true

/-- **The table adds instructions and takes only two families away.** -/
theorem OpcodeTable.availability_patterns : ∀ p ∈ patterns,
    if p.family.isModuleCall then p.availability = .only .g68020
    else p.availability.isUpward = true := by
  decide +kernel

namespace Availability

/-- What is available from a generation on is available from its place in the line on. -/
theorem allows_since {g : Generation} (hg : (since g).isUpward = true) (cpu : Cpu) :
    (since g).allows cpu = true ↔ g.level ≤ cpu.level := by
  cases g
  case g68008 => cases hg
  all_goals cases cpu <;> decide

theorem allows_of_level_le {v : Availability} (hv : v.isUpward = true) {a b : Cpu}
    (hab : a.level ≤ b.level) (h : v.allows a = true) : v.allows b = true := by
  cases v with
  | only g => cases hv
  | since g =>
    rw [allows_since hv] at h ⊢
    omega

theorem allows_only_020 {cpu : Cpu} (h : 2 ≤ cpu.level) :
    (only .g68020).allows cpu = true ↔ ¬ (cpu = .m68030 ∨ cpu = .m68040) := by
  cases cpu
  case m68000 | m68008 | m68010 => exact absurd h (by decide)
  all_goals decide

end Availability

namespace Cpu

theorem isValid_iff {cpu : Cpu} {opcode : Word} :
    cpu.isValid opcode = true ↔ (Pattern.ofOpcode opcode).availability.allows cpu = true ∧
      (Pattern.ofOpcode opcode).family ≠ .illegal := by
  cases h : (Pattern.ofOpcode opcode).availability.allows cpu <;> simp [isValid, family, h]

/-- A valid opcode has the family of its pattern. -/
theorem family_of_isValid {cpu : Cpu} {opcode : Word} (h : cpu.isValid opcode = true) :
    cpu.family opcode = (Pattern.ofOpcode opcode).family :=
  if_pos (isValid_iff.mp h).1

/-- **Later processors execute what earlier ones do**, apart from the module calls of the 68020. -/
theorem isValid_of_level_le {a b : Cpu} (hab : a.level ≤ b.level) {opcode : Word}
    (h : a.isValid opcode = true) : b.isValid opcode = true ↔
      ¬ ((Pattern.ofOpcode opcode).family.isModuleCall = true ∧ (b = .m68030 ∨ b = .m68040)) := by
  obtain ⟨hallows, hfamily⟩ := isValid_iff.mp h
  have hrow : if (Pattern.ofOpcode opcode).family.isModuleCall
      then (Pattern.ofOpcode opcode).availability = .only .g68020
      else (Pattern.ofOpcode opcode).availability.isUpward = true := by
    rcases Pattern.ofOpcode_cases opcode with hillegal | ⟨hmem, -⟩
    · rw [hillegal] at hfamily
      exact absurd rfl hfamily
    · exact OpcodeTable.availability_patterns _ hmem
  rw [isValid_iff]
  cases hmodule : (Pattern.ofOpcode opcode).family.isModuleCall with
  | false =>
    rw [hmodule] at hrow
    have hb := Availability.allows_of_level_le hrow hab hallows
    simp [hb, hfamily]
  | true =>
    rw [hmodule] at hrow
    replace hrow : (Pattern.ofOpcode opcode).availability = .only .g68020 := hrow
    rw [hrow] at hallows ⊢
    have ha : 2 ≤ a.level := by
      cases a <;> revert hallows <;> decide
    rw [Availability.allows_only_020 (by omega)]
    simp [hfamily]

end Cpu

end Disasm68
