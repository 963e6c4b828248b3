import Disasm68.Proofs.Family.IndexWords
import Disasm68.Proofs.Opcode.Resolution

/-!
# Opcodes have addressing modes

A pattern keeps undefined modes out in one of three ways. If it lists the modes of its address, an
undefined one is not among them. If it lists none, the positions that it fixes leave defined modes
only (`OpcodeTable.modes_patterns`), or its instruction has no address. The destination of a move is
looked at on its own. So whatever opcode an instruction is decoded from, all its addresses have a
mode (`Cpu.exists_mode_of_mem_addresses`).
-/

namespace Disasm68

namespace Family

variable {family : Family} {opcode : Word} {a : BitVec 6 × Size}

/-- Whether the instructions of a family have an address. Its field is not needed to tell. -/
def hasAddress (family : Family) : Bool :=
  !(family.addresses 0).isEmpty

theorem hasAddress_of_mem (h : a ∈ family.addresses opcode) : family.hasAddress = true := by
  unfold addresses at h
  split at h
  -- the last case has no address
  all_goals first | rfl | cases h

/-- An address has the field at the end of the opcode, or the destination field of a move. -/
theorem field_of_mem_addresses (h : a ∈ family.addresses opcode) :
    a.1 = Opcode.field opcode ∨
      (∃ size, family = .move size) ∧ a.1 = Opcode.destination opcode := by
  unfold addresses at h
  split at h
  case h_1 size =>
    rcases List.mem_cons.mp h with rfl | h
    · exact .inl rfl
    · rw [List.mem_singleton.mp h]
      exact .inr ⟨⟨size, rfl⟩, rfl⟩
  -- the last case has no address
  all_goals first
    | exact .inl (congrArg Prod.fst (List.mem_singleton.mp h))
    | cases h

end Family

/-- **Patterns without a list of modes fix a mode.** -/
theorem OpcodeTable.modes_patterns : ∀ p ∈ patterns, p.modes = 0 → p.family.hasAddress = true →
    ∀ field : BitVec 6, field &&& p.mask.setWidth 6 = p.bits.setWidth 6 →
      AddressMode.ofField? field ≠ none := by
  decide +kernel

namespace Pattern

variable {p : Pattern} {opcode : Word}

/-- A pattern that accepts an opcode fixes positions of its address field too. -/
theorem field_of_accepts (h : opcode &&& p.mask = p.bits) :
    Opcode.field opcode &&& p.mask.setWidth 6 = p.bits.setWidth 6 := by
  have hfield : Opcode.field opcode = opcode.setWidth 6 := by
    ext i hi
    simp [Opcode.field]
  rw [hfield, ← BitVec.setWidth_and, h]

/-- The addresses of an opcode that a pattern of the table accepts have a mode. -/
theorem exists_mode_of_accepts (hp : p ∈ OpcodeTable.patterns) (h : p.accepts opcode = true)
    {a : BitVec 6 × Size} (ha : a ∈ p.family.addresses opcode) :
    ∃ mode, AddressMode.ofField? a.1 = some mode := by
  obtain ⟨hbits, hmove, hmodes⟩ := accepts_iff.mp h
  rcases Family.field_of_mem_addresses ha with hfield | ⟨⟨size, hsize⟩, hdestination⟩
  · rw [hfield]
    rcases AddressMode.admits_iff.mp hmodes with hnone | ⟨mode, hmode, -⟩
    · exact Option.ne_none_iff_exists'.mp <|
        OpcodeTable.modes_patterns p hp hnone (Family.hasAddress_of_mem ha) _ (field_of_accepts hbits)
    · exact ⟨mode, hmode⟩
  · rw [hdestination]
    obtain ⟨mode, hmode, -⟩ := AddressMode.admits_dataAlterable_iff.mp (hmove size hsize)
    exact ⟨mode, hmode⟩

end Pattern

/-- **The addresses of an instruction have a mode**, whatever its opcode and the processor are. -/
theorem Cpu.exists_mode_of_mem_addresses (cpu : Cpu) (opcode : Word) {a : BitVec 6 × Size}
    (ha : a ∈ (cpu.family opcode).addresses opcode) :
    ∃ mode, AddressMode.ofField? a.1 = some mode := by
  unfold family at ha
  dsimp only at ha
  split at ha
  case isTrue =>
    rcases Pattern.ofOpcode_cases opcode with hillegal | ⟨hp, haccepts⟩
    · rw [hillegal] at ha
      cases ha
    · exact Pattern.exists_mode_of_accepts hp haccepts ha
  case isFalse => cases ha

end Disasm68
