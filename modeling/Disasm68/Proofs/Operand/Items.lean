import Disasm68.Operand.EffectiveAddress
import Disasm68.Proofs.Numeral.Hex
import Disasm68.Proofs.Operand.Register
import Disasm68.Proofs.Text.Printable

/-!
# The items of an address

An address in memory is printed as a list of items between commas, some of which are in brackets:
displacements, a base and an index register. No item contains a comma or a bracket and no two items
have the same text (`Item.text_inj`), so a list determines its items (`Item.listed_inj`), and one
with brackets also determines which of them are in the brackets (`Item.bracketed_inj`).
-/

namespace Disasm68

open Text

/-! ## The names of registers in addresses -/

/-- A character of the names of bases and index registers. -/
def Text.isNameChar (c : Char) : Bool :=
  c.isAlphanum || c = '.' || c = '*'

/-- A text of characters of names. -/
def Text.IsName (s : String) : Prop :=
  ∀ c ∈ s.toList, isNameChar c = true

instance (s : String) : Decidable (IsName s) :=
  List.decidableBAll (isNameChar · = true) s.toList

theorem Text.isName_append {s t : String} : IsName (s ++ t) ↔ IsName s ∧ IsName t := by
  simp only [IsName, String.toList_append, List.forall_mem_append]

theorem Register.isName_text (r : Register) : IsName r.text := by
  obtain ⟨bank, number⟩ := r
  revert number
  cases bank <;> decide

namespace Base

theorem isName_text (b : Base) : IsName b.text := by
  cases b with
  | address n => exact Register.isName_text _
  | pc => decide

theorem length_text (b : Base) : b.text.length = 2 := by
  cases b with
  | address n => exact Register.length_text _
  | pc => decide

theorem text_inj {b b' : Base} : b.text = b'.text ↔ b = b' := by
  refine ⟨fun h => ?_, congrArg text⟩
  have hpc : ∀ n, (address n).text ≠ pc.text := by decide
  cases b with
  | address n =>
    cases b' with
    | address n' => exact congrArg (address ·.number) (Register.text_inj.mp h)
    | pc => exact absurd h (hpc n)
  | pc =>
    cases b' with
    | address n' => exact absurd h.symm (hpc n')
    | pc => rfl

end Base

namespace Index

theorem isName_text (i : Index) : IsName i.text := by
  have hwidth : ∀ long : Bool, IsName (if long then ".l" else ".w") := by decide
  have hscale : ∀ scale : BitVec 2,
      IsName (if scale = 0 then "" else "*" ++ toString (1 <<< scale.toNat)) := by decide
  rw [text, isName_append, isName_append]
  exact ⟨⟨Register.isName_text _, hwidth _⟩, hscale _⟩

theorem length_width (long : Bool) : (if long then ".l" else ".w").length = 2 := by
  cases long <;> rfl

theorem two_lt_length_text (i : Index) : 2 < i.text.length := by
  rw [text, String.length_append, String.length_append, Register.length_text, length_width]
  omega

theorem text_inj {i i' : Index} : i.text = i'.text ↔ i = i' := by
  refine ⟨fun h => ?_, congrArg text⟩
  have hwidth : ∀ l l' : Bool,
      (if l then ".l" else ".w") = (if l' then ".l" else ".w") → l = l' := by decide
  have hscale : ∀ s s' : BitVec 2,
      (if s = 0 then "" else "*" ++ toString (1 <<< s.toNat)) =
        (if s' = 0 then "" else "*" ++ toString (1 <<< s'.toNat)) → s = s' := by decide
  obtain ⟨r, l, s⟩ := i
  obtain ⟨r', l', s'⟩ := i'
  simp only [text, String.append_assoc] at h
  obtain ⟨hr, h⟩ := (append_inj (by simp)).mp h
  obtain ⟨hl, hs⟩ := (append_inj ((length_width l).trans (length_width l').symm)).mp h
  rw [Register.text_inj.mp hr, hwidth l l' hl, hscale s s' hs]

end Index

/-! ## What an address lists -/

/-- What stands between the commas of an address. -/
inductive Item where
  | displacement (d : Long)
  | base (b : Base)
  | index (i : Index)

namespace Item

/-- An item in assembler notation. -/
def text : Item → String
  | displacement d => Hex.signed d
  | base b => b.text
  | index i => i.text

/-- A character that stands between items or around them. -/
def isMark (c : Char) : Bool :=
  c = ',' || c = '[' || c = ']'

/-- A text without marks. -/
def Unmarked (s : String) : Prop :=
  ∀ c ∈ s.toList, isMark c = false

instance (s : String) : Decidable (Unmarked s) :=
  List.decidableBAll (isMark · = false) s.toList

theorem unmarked_of_isName {s : String} (h : IsName s) : Unmarked s := by
  intro c hc
  rw [Bool.eq_false_iff]
  intro hmark
  have hname := h c hc
  simp only [isMark, Bool.or_eq_true, decide_eq_true_eq] at hmark
  rcases hmark with (rfl | rfl) | rfl <;> exact absurd hname (by decide)

theorem unmarked_signed (d : Long) : Unmarked (Hex.signed d) := by
  have hdigits (n : Nat) : Unmarked (Hex.lower n) := by
    rw [Unmarked, Hex.lower, String.toList_ofList]
    exact forall_mem_toDigits (by decide) (by decide) n
  have hsign (p : Prop) [Decidable p] : Unmarked (if p then "-$" else "$") := by
    split <;> decide
  rw [Hex.signed_eq, Unmarked, String.toList_append, List.forall_mem_append]
  exact ⟨hsign _, hdigits _⟩

/-- No item contains a mark. -/
theorem unmarked_text (item : Item) : Unmarked item.text := by
  cases item with
  | displacement d => exact unmarked_signed d
  | base b => exact unmarked_of_isName b.isName_text
  | index i => exact unmarked_of_isName i.isName_text

/-- A numeral contains a character that no name contains. -/
theorem dollar_mem_signed (d : Long) : '$' ∈ (Hex.signed d).toList := by
  rw [Hex.signed_eq, String.toList_append, List.mem_append]
  left
  split <;> decide

theorem signed_ne_name {d : Long} {s : String} (hs : IsName s) :
    Hex.signed d ≠ s := by
  intro h
  exact absurd (hs '$' (h ▸ dollar_mem_signed d)) (by decide)

theorem base_ne_index (b : Base) (i : Index) : b.text ≠ i.text := by
  intro h
  have hlen := i.two_lt_length_text
  rw [← h, b.length_text] at hlen
  exact Nat.lt_irrefl 2 hlen

/-- **The text of an item determines it.** A numeral is told by its `$`, a base by its length. -/
theorem text_inj {item item' : Item} : item.text = item'.text ↔ item = item' := by
  refine ⟨fun h => ?_, congrArg text⟩
  cases item with
  | displacement d =>
    cases item' with
    | displacement d' => exact congrArg displacement (Hex.signed_inj.mp h)
    | base b' => exact absurd h (signed_ne_name b'.isName_text)
    | index i' => exact absurd h (signed_ne_name i'.isName_text)
  | base b =>
    cases item' with
    | displacement d' => exact absurd h.symm (signed_ne_name b.isName_text)
    | base b' => exact congrArg base (Base.text_inj.mp h)
    | index i' => exact absurd h (base_ne_index b i')
  | index i =>
    cases item' with
    | displacement d' => exact absurd h.symm (signed_ne_name i.isName_text)
    | base b' => exact absurd h.symm (base_ne_index b' i)
    | index i' => exact congrArg index (Index.text_inj.mp h)

theorem text_ne_empty (item : Item) : item.text ≠ "" := by
  intro h
  cases item with
  | displacement d => exact Hex.signed_ne_empty d h
  | base b =>
    have hlen := b.length_text
    rw [show b.text = "" from h] at hlen
    exact absurd hlen (by decide)
  | index i =>
    have hlen := i.two_lt_length_text
    rw [show i.text = "" from h] at hlen
    exact absurd hlen (by decide)

theorem not_mem_text {c : Char} (hc : isMark c = true) (item : Item) : c ∉ item.text.toList :=
  fun hmem => Bool.false_ne_true ((unmarked_text item c hmem).symm.trans hc)

/-! ## Lists of items -/

variable {items items' inner inner' outer outer' : List Item}

/-- Items between commas. -/
def listed (items : List Item) : String :=
  ",".intercalate (items.map text)

/-- Items between commas, the first of which are in brackets. -/
def bracketed (inner outer : List Item) : String :=
  ",".intercalate (("[" ++ listed inner ++ "]") :: outer.map text)

theorem not_mem_texts {c : Char} (hc : isMark c = true) (items : List Item) :
    ∀ s ∈ items.map text, c ∉ s.toList :=
  List.forall_mem_map.mpr fun item _ => not_mem_text hc item

/-- **A list between commas determines its items.** -/
theorem listed_inj : listed items = listed items' ↔ items = items' := by
  have hempty (items : List Item) : "" ∉ items.map text := by
    intro h
    obtain ⟨item, -, hitem⟩ := List.mem_map.mp h
    exact text_ne_empty item hitem
  unfold listed
  rw [intercalate_inj_of_ne_empty (by rfl) (hempty _) (hempty _) (not_mem_texts rfl _)
    (not_mem_texts rfl _), List.map_inj_right fun _ _ => text_inj.mp]

/-- There is no bracket in a list between commas. -/
theorem not_mem_listed {c : Char} (hc : isMark c = true) (hcomma : c ∉ ",".toList)
    (items : List Item) : c ∉ (listed items).toList :=
  not_mem_intercalate hcomma (not_mem_texts hc items)

/-- What follows the closing bracket, with a comma in front of every item. -/
def behind (outer : List Item) : String :=
  ",".intercalate ("" :: outer.map text)

theorem not_mem_texts_behind {c : Char} (hc : isMark c = true) (outer : List Item) :
    ∀ s ∈ "" :: outer.map text, c ∉ s.toList :=
  List.forall_mem_cons.mpr ⟨List.not_mem_nil, not_mem_texts hc outer⟩

theorem behind_inj : behind outer = behind outer' ↔ outer = outer' := by
  unfold behind
  rw [intercalate_inj (by rfl) (by simp) (by simp) (not_mem_texts_behind rfl _)
    (not_mem_texts_behind rfl _), List.cons.injEq, List.map_inj_right fun _ _ => text_inj.mp]
  simp

/-- The closing bracket stands between the two parts of a list. -/
theorem bracketed_eq (inner outer : List Item) :
    bracketed inner outer = "]".intercalate ["[" ++ listed inner, behind outer] := by
  rw [bracketed, ← String.append_empty (s := "[" ++ listed inner ++ "]"),
    String.intercalate_cons_append]
  rfl

/-- **A list with brackets determines what is in them and what is behind them.** -/
theorem bracketed_inj :
    bracketed inner outer = bracketed inner' outer' ↔ inner = inner' ∧ outer = outer' := by
  have hparts (inner outer : List Item) :
      ∀ s ∈ ["[" ++ listed inner, behind outer], ']' ∉ s.toList := by
    have hinner : ']' ∉ ("[" ++ listed inner).toList := by
      rw [String.toList_append, List.mem_append, not_or]
      exact ⟨by decide, not_mem_listed rfl (by decide) inner⟩
    have houter : ']' ∉ (behind outer).toList :=
      not_mem_intercalate (by decide) (not_mem_texts_behind rfl outer)
    exact List.forall_mem_cons.mpr ⟨hinner, List.forall_mem_singleton.mpr houter⟩
  rw [bracketed_eq, bracketed_eq,
    intercalate_inj (by rfl) (by simp) (by simp) (hparts _ _) (hparts _ _)]
  simp only [List.cons.injEq, and_true, String.append_right_inj, listed_inj, behind_inj]

/-- A list has brackets or not. -/
theorem listed_ne_bracketed : listed items ≠ bracketed inner outer := by
  intro h
  refine not_mem_listed (c := '[') rfl (by decide) items ?_
  rw [h]
  obtain ⟨t, ht⟩ := exists_intercalate_cons "," ("[" ++ listed inner ++ "]") (outer.map text)
  rw [bracketed, ht]
  simp

end Item

end Disasm68
