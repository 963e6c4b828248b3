import Disasm68.Proofs.Operand.Composed

/-!
# Operands are printable

Every operand is shown by printable characters, whatever the words of the instruction are. So are
the two that are not composed of the letters of operands.
-/

namespace Disasm68

open Text

/-- The letters of operands are printable. -/
theorem Operand.isPrintable_of_isLetter {c : Char} (h : isLetter c = true) :
    isPrintable c = true := by
  have hsigns : signs.all isPrintable = true := by decide
  rcases Bool.or_eq_true_iff.mp h with hitem | hsign
  · simp only [Item.isLetter, isNameChar, Bool.or_eq_true, Bool.and_eq_true, decide_eq_true_eq]
      at hitem
    rcases hitem with (⟨(hletter | rfl) | rfl, -⟩ | rfl) | rfl
    · exact isPrintable_of_isAlphanum hletter
    all_goals decide
  · exact List.all_eq_true.mp hsigns c (List.contains_iff_mem.mp hsign)

/-- What is composed of the letters of operands is printable, since commas and blanks are. -/
theorem Operand.printable_of_composed {s : String} (h : Composed isLetter s) : Printable s := by
  intro c hc
  rcases h.forall_mem c hc with hletter | rfl | rfl
  · exact isPrintable_of_isLetter hletter
  · decide
  · decide

theorem EffectiveAddress.printable_text (ea : EffectiveAddress) : Printable ea.text := by
  cases ea with
  | undefined field => exact printable_append.mpr ⟨by decide, Hex.printable_lower _⟩
  | _ => exact Operand.printable_of_composed (Defined.composed_text trivial)

/-- **Every operand is printable.** -/
@[simp] theorem Operand.printable_text (origin : Long) (operand : Operand) :
    Printable (operand.text origin) := by
  cases operand with
  | address ea => exact ea.printable_text
  | bits ea field =>
    have hfield : Printable field.text := printable_of_composed (.spelled field.spelled_text)
    exact printable_append.mpr ⟨printable_append.mpr ⟨ea.printable_text, by decide⟩, hfield⟩
  | registers mask =>
    by_cases hmask : mask = 0
    · rw [text, RegisterList.text_eq_empty_iff.mpr hmask]
      decide
    · exact printable_of_composed (.spelled (RegisterList.spelled_text hmask))
  | _ =>
    refine printable_of_composed (Complete.composed_text ?_ origin)
    trivial

end Disasm68
