import Disasm68.Operand.Register

/-!
# Names of registers

Every register has a name of two characters, and no two registers have the same.
-/

namespace Disasm68.Register

@[simp] theorem length_text (r : Register) : r.text.length = 2 := by
  obtain ⟨bank, number⟩ := r
  revert number
  cases bank <;> decide

@[simp] theorem text_inj {r s : Register} : r.text = s.text ↔ r = s := by
  refine ⟨fun h => ?_, fun h => h ▸ rfl⟩
  obtain ⟨bank, number⟩ := r
  obtain ⟨bank', number'⟩ := s
  revert number number'
  cases bank <;> cases bank' <;> decide

end Disasm68.Register
