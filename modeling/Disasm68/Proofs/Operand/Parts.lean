import Disasm68.Proofs.Operand.Notation
import Disasm68.Proofs.Text.Composed

/-!
# The parts of an address

Of the items of an address at most one is a displacement, one a base and one an index register, and
they stand in this order (`Item.parts`). `FullIndex.text_eq` writes the text of an address with its
parts: without indirection they are all that there is, and where memory is indirected through, some
of them are in the brackets and the others behind.

The items are spelled with letters and digits that do not include the commas and brackets which
stand between them (`Item.spelled_text`).
-/

namespace Disasm68

open Text

/-! ## The letters of items -/

namespace Item

/-- The characters that items are written with. The capital `N` is not among them: of all operands
only an address of an undefined mode is shown with one. -/
def isLetter (c : Char) : Bool :=
  isNameChar c && c ≠ 'N' || c = '$' || c = '-'

theorem spelled_lower (n : Nat) : Spelled isLetter (Hex.lower n) :=
  Spelled.ofDigits (by decide) (by decide) n

theorem spelled_signed {w : Nat} (v : BitVec w) : Spelled isLetter (Hex.signed v) := by
  unfold Hex.signed
  split
  · exact .append (by decide) (spelled_lower _)
  · exact .append (by decide) (spelled_lower _)

theorem spelled_register (r : Register) : Spelled isLetter r.text := by
  obtain ⟨bank, number⟩ := r
  revert number
  cases bank <;> decide

theorem spelled_base (b : Base) : Spelled isLetter b.text := by
  cases b with
  | address n => exact spelled_register _
  | pc => decide

theorem spelled_index (i : Index) : Spelled isLetter i.text := by
  have hwidth : ∀ long : Bool, Spelled isLetter (if long then ".l" else ".w") := by decide
  have hscale : ∀ scale : BitVec 2, Written isLetter
      (if scale = 0 then "" else "*" ++ toString (1 <<< scale.toNat)) := by decide
  exact ((spelled_register _).append (hwidth _)).append_written (hscale _)

/-- **Every item is spelled** with the letters of items. -/
theorem spelled_text (item : Item) : Spelled isLetter item.text := by
  cases item with
  | displacement d => exact spelled_signed d
  | base b => exact spelled_base b
  | index i => exact spelled_index i

/-! ## Their order -/

/-- At most one displacement, one base and one index register. -/
def parts (d : Option Long) (b : Option Base) (i : Option Index) : List Item :=
  (d.map .displacement).toList ++ names b i

theorem parts_eq_nil_iff {d : Option Long} {b : Option Base} {i : Option Index} :
    parts d b i = [] ↔ d = none ∧ b = none ∧ i = none := by
  cases d <;> cases b <;> cases i <;> simp [parts, names]

end Item

namespace FullIndex

/-- The displacement that is printed: one that is not zero, or a zero if neither base nor index is
there. -/
def shownDisplacement (parts : FullIndex) : Option Long :=
  if parts.displacement ≠ 0 ∨ (parts.base = none ∧ parts.index = none) then some parts.displacement
  else none

/-- The outer displacement that is printed. -/
def shownOuter (parts : FullIndex) : Option Long :=
  if parts.outer = 0 then none else some parts.outer

theorem shownDisplacement_eq_none_iff {p : FullIndex} :
    p.shownDisplacement = none ↔ p.displacement = 0 ∧ ¬ (p.base = none ∧ p.index = none) := by
  unfold shownDisplacement
  split
  case isTrue h =>
    exact iff_of_false (Option.some_ne_none _) fun ⟨hd, hno⟩ => h.elim (fun hne => hne hd) hno
  case isFalse h =>
    obtain ⟨hd, hno⟩ := not_or.mp h
    exact iff_of_true rfl ⟨Decidable.not_not.mp hd, hno⟩

/-- With all registers on one side of the brackets there is something to list on that side. -/
theorem parts_ne_nil (p : FullIndex) : Item.parts p.shownDisplacement p.base p.index ≠ [] := by
  rw [ne_eq, Item.parts_eq_nil_iff, shownDisplacement_eq_none_iff]
  rintro ⟨⟨-, hregister⟩, hnone⟩
  exact hregister hnone

open Item in
/-- **The parts of the text**, by the side of the brackets on which they stand. -/
theorem text_eq (p : FullIndex) :
    p.text = "(" ++ (match p.indirection with
      | .direct => listed (Item.parts p.shownDisplacement p.base p.index)
      | .preindexed =>
        bracketed (Item.parts p.shownDisplacement p.base p.index)
          (names none none ++ (p.shownOuter.map .displacement).toList)
      | .postindexed =>
        bracketed (Item.parts p.shownDisplacement p.base none)
          (names none p.index ++ (p.shownOuter.map .displacement).toList)) ++ ")" := by
  have hdisplacement : (if p.displacement ≠ 0 ∨ (p.base = none ∧ p.index = none) then
      [Hex.signed p.displacement] else []) =
      (p.shownDisplacement.map Item.displacement).toList.map Item.text := by
    unfold shownDisplacement
    split <;> rfl
  have houter : (if p.outer = 0 then [] else [Hex.signed p.outer]) =
      (p.shownOuter.map Item.displacement).toList.map Item.text := by
    unfold shownOuter
    split <;> rfl
  unfold text
  rw [hdisplacement, houter]
  cases p.indirection <;> simp [listed, bracketed, Item.parts]

end FullIndex

end Disasm68
