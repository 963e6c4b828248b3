import Disasm68.Operand
import Disasm68.Proofs.Operand.Composed

/-!
# No operand looks like a tag

A tag is a parenthesis with a digit or a question mark behind it. In an operand a parenthesis is
followed by the sign of a number, by the name of a register or by a bracket, so a tag is nowhere to
be found in one (`Operand.tidy_text`). Nor is it in what is made of operands and of texts without
parentheses.
-/

namespace Disasm68

open Text

/-- The parenthesis of a tag and the characters that follow it. -/
def Text.Marks.tags : Marks := ⟨['('], ['1', '2', '4', '?']⟩

/-- A tag is not tidy by its own marks, so nothing tidy ends with it. -/
theorem Tag.not_suffix_of_tidy {s : String} (h : Tidy .tags s) (tag : Tag) :
    ¬ tag.text.toList <:+ s.toList := by
  have htag : ¬ Tidy .tags tag.text := by cases tag <;> decide
  exact fun hsuffix => htag (List.IsChain.suffix h hsuffix)

/-! ## Texts without parentheses -/

/-- Whether a character opens no parenthesis. -/
def Text.isFlat (c : Char) : Bool :=
  c ≠ '('

/-- A text that opens no parenthesis. -/
abbrev Text.Flat (s : String) : Prop :=
  Written isFlat s

theorem Text.Flat.not_opens {s : String} (h : Flat s) : ∀ c ∈ s.toList, c ∉ Marks.tags.opens := by
  intro c hc hopen
  have hflat := h c hc
  rw [List.mem_singleton.mp hopen] at hflat
  cases hflat

/-- What is tidy may follow a text without parentheses. -/
theorem Text.Flat.tidy_append {s t : String} (hs : Flat s) (ht : Tidy .tags t) :
    Tidy .tags (s ++ t) :=
  (tidy_of_forall hs.not_opens).append ht fun c hc _ _ hmeet =>
    hs.not_opens c (List.mem_of_getLast? hc) hmeet.1

theorem Text.Flat.tidy {s : String} (h : Flat s) : Tidy .tags s :=
  tidy_of_forall h.not_opens

namespace Text.Solid

variable {s t left : String}

/-- Behind a solid text there may be any without parentheses. -/
theorem append_flat (hs : Solid .tags s) (ht : Flat t) : Solid .tags (s ++ t) := by
  refine ⟨?_, hs.head_append t, ?_⟩
  · exact hs.tidy.append ht.tidy fun c hc _ _ hmeet => hs.not_opens c hc hmeet.1
  · rw [String.toList_append, List.getLast?_append]
    cases hlast : t.toList.getLast? with
    | none => exact hs.last
    | some c => exact ⟨c, rfl, ht.not_opens c (List.mem_of_getLast? hlast)⟩

/-- In front of it there may be a parenthesis. -/
theorem prepend (hleft : Tidy .tags left)
    (hhead : ∃ c, left.toList.head? = some c ∧ c ∉ Marks.tags.closes) (hs : Solid .tags s) :
    Solid .tags (left ++ s) := by
  obtain ⟨c, hc, hclose⟩ := hhead
  refine ⟨hs.tidy_append hleft, ⟨c, ?_, hclose⟩, hs.last_append left⟩
  rw [String.toList_append, List.head?_append, hc, Option.some_or]

theorem paren (hs : Solid .tags s) : Solid .tags ("(" ++ s) :=
  hs.prepend (by decide) ⟨'(', rfl, by decide⟩

end Text.Solid

namespace Operand

/-- The letters of items are no parentheses. -/
theorem flat_of_item {s : String} (h : Spelled Item.isLetter s) : Flat s := by
  refine (h.mono fun c hc => decide_eq_true ?_).written
  rintro rfl
  cases hc

@[simp] theorem flat_repr (n : Nat) : Flat n.repr :=
  written_digits (by decide) (by decide) n

@[simp] theorem flat_lower (n : Nat) : Flat (Hex.lower n) :=
  flat_of_item (Item.spelled_lower n)

@[simp] theorem flat_signed {w : Nat} (v : BitVec w) : Flat (Hex.signed v) :=
  flat_of_item (Item.spelled_signed v)

@[simp] theorem flat_unsigned {w : Nat} (v : BitVec w) : Flat (Hex.unsigned v) :=
  written_append.mpr ⟨by decide, flat_lower _⟩

@[simp] theorem flat_lowerPadded (width n : Nat) : Flat (Hex.lowerPadded width n) := by
  rw [Hex.lowerPadded, List.leftpad, String.ofList_append]
  refine written_append.mpr ⟨fun c hc => ?_, flat_lower n⟩
  rw [String.toList_ofList] at hc
  rw [List.eq_of_mem_replicate hc]
  decide

@[simp] theorem flat_datum_unsigned (value : Datum) : Flat value.unsigned := by
  cases value <;> exact flat_unsigned _

@[simp] theorem flat_datum_signed (value : Datum) : Flat value.signed := by
  cases value <;> exact flat_signed _

@[simp] theorem flat_register (r : Register) : Flat r.text :=
  flat_of_item (Item.spelled_register r)

@[simp] theorem flat_bound (bound : FieldBound) : Flat bound.text := by
  cases bound with
  | constant n => exact flat_repr n
  | register n => exact flat_register _

@[simp] theorem flat_special (r : SpecialRegister) : Flat r.text := by
  cases r <;> decide

@[simp] theorem flat_control (code : BitVec 12) : Flat (ControlRegister.text code) := by
  have hknown : ∀ entry ∈ ControlRegister.known, Flat entry.2.1 := by decide
  unfold ControlRegister.text
  split
  case h_1 name tag hlookup =>
    obtain ⟨before, after, hsplit, -⟩ := List.lookup_eq_some_iff.mp hlookup
    refine hknown (code, name, tag) ?_
    rw [hsplit]
    exact List.mem_append_right _ List.mem_cons_self
  case h_2 => exact flat_unsigned _

@[simp] theorem flat_registers (mask : Word) : Flat (RegisterList.text mask) := by
  have hrun (bank : Bank) (run : Nat × Nat) : Flat (RegisterList.runText bank run) := by
    have hbank : Flat bank.letter := by cases bank <;> decide
    unfold RegisterList.runText
    split <;> simp +decide [hbank]
  have hslash : Flat "/" := by decide
  refine forall_mem_intercalate hslash (List.forall_mem_append.mpr ⟨?_, ?_⟩)
  · exact List.forall_mem_map.mpr fun run _ => hrun .data run
  · exact List.forall_mem_map.mpr fun run _ => hrun .address run

end Operand

/-! ## Texts with parentheses -/

/-- The sign of a number. -/
theorem Hex.solid_signed {w : Nat} (v : BitVec w) : Solid .tags (signed v) := by
  unfold signed
  split <;> exact .append_flat (by decide) (Operand.flat_lower _)

theorem Hex.solid_unsigned {w : Nat} (v : BitVec w) : Solid .tags (unsigned v) :=
  .append_flat (by decide) (Operand.flat_lower _)

theorem Register.solid_text (r : Register) : Solid .tags r.text := by
  have hbank : ∀ bank : Bank, Solid .tags bank.letter := by
    intro bank
    cases bank <;> decide
  exact (hbank _).append_flat (Operand.flat_repr _)

theorem Base.solid_text (b : Base) : Solid .tags b.text := by
  cases b with
  | address n => exact Register.solid_text _
  | pc => decide

theorem Index.solid_text (i : Index) : Solid .tags i.text := by
  have hwidth : ∀ long : Bool, Flat (if long then ".l" else ".w") := by decide
  have hscale : ∀ scale : BitVec 2,
      Flat (if scale = 0 then "" else "*" ++ toString (1 <<< scale.toNat)) := by decide
  exact (i.register.solid_text.append_flat (hwidth _)).append_flat (hscale _)

namespace Item

/-- An item begins with the sign of a number or the name of a register. -/
theorem solid_tags (item : Item) : Solid .tags item.text := by
  cases item with
  | displacement d => exact Hex.solid_signed d
  | base b => exact b.solid_text
  | index i => exact i.solid_text

theorem solid_tags_list (items : List Item) : ∀ s ∈ items.map text, Solid .tags s :=
  List.forall_mem_map.mpr fun item _ => item.solid_tags

theorem flat_listed (items : List Item) : Flat (listed items) := by
  have hcomma : Flat "," := by decide
  exact forall_mem_intercalate hcomma <|
    List.forall_mem_map.mpr fun item _ => Operand.flat_of_item item.spelled_text

theorem solid_tags_listed {items : List Item} (hne : items ≠ []) : Solid .tags (listed items) :=
  .intercalate (.singleton ',') (mt List.map_eq_nil_iff.mp hne) (solid_tags_list items)

/-- There need not be an item in the brackets. -/
theorem solid_tags_bracketed (inner outer : List Item) : Solid .tags (bracketed inner outer) := by
  refine .intercalate (.singleton ',') (List.cons_ne_nil _ _) (List.forall_mem_cons.mpr ⟨?_, ?_⟩)
  · exact .append_flat (.append_flat (by decide) (flat_listed inner)) (by decide)
  · exact solid_tags_list outer

end Item

theorem FullIndex.solid_text (p : FullIndex) : Solid .tags p.text := by
  rw [text_eq]
  refine .append_flat (.paren ?_) (by decide)
  cases p.indirection with
  | direct => exact Item.solid_tags_listed p.parts_ne_nil
  | preindexed | postindexed => exact Item.solid_tags_bracketed _ _

theorem EffectiveAddress.tidy_text (ea : EffectiveAddress) : Tidy .tags ea.text := by
  cases ea with
  | indirect n | postincrement n => exact ((Base.solid_text _).paren.append_flat (by decide)).tidy
  | predecrement n =>
    have hleft : Solid .tags ("-(" ++ (Base.address n).text) :=
      (Base.solid_text _).prepend (by decide) ⟨'-', rfl, by decide⟩
    exact (hleft.append_flat (by decide)).tidy
  | displaced base d =>
    have hleft : Solid .tags ("(" ++ Hex.signed d ++ ",") :=
      (Hex.solid_signed d).paren.append_flat (by decide)
    exact ((hleft.append base.solid_text).append_flat (by decide)).tidy
  | short address | absolute address =>
    exact ((Hex.solid_signed address).paren.append_flat (by decide)).tidy
  | brief base d index =>
    have hleft : Solid .tags ("(" ++ Hex.signed d ++ ",") :=
      (Hex.solid_signed d).paren.append_flat (by decide)
    have hbase : Solid .tags ("(" ++ Hex.signed d ++ "," ++ base.text ++ ",") :=
      (hleft.append base.solid_text).append_flat (by decide)
    exact ((hbase.append index.solid_text).append_flat (by decide)).tidy
  | full parts => exact parts.solid_text.tidy
  | register | immediate | null | reserved | undefined => exact Flat.tidy (by simp +decide [text])

/-- **No operand looks like a tag**, nor does a part of it. -/
theorem Operand.tidy_text (origin : Long) (o : Operand) : Tidy .tags (o.text origin) := by
  cases o with
  | address ea => exact ea.tidy_text
  | bits ea field =>
    have hlist : (bits ea field).text origin = " ".intercalate [ea.text, field.text] := by
      simp [text]
    have hfield : Flat field.text := by simp +decide [BitField.text]
    rw [hlist]
    refine Solid.tidy_intercalate (by decide) ?_
    simp [ea.tidy_text, hfield.tidy]
  | peripheral d n =>
    have hleft : Solid .tags ("(" ++ Hex.unsigned d ++ ",") :=
      (Hex.solid_unsigned d).paren.append_flat (by decide)
    exact ((hleft.append (Base.solid_text _)).append_flat (by decide)).tidy
  | places a b =>
    have hboth : Solid .tags ("(" ++ a.text ++ "):(" ++ b.text) :=
      .join (by decide) a.solid_text.paren b.solid_text
    exact (hboth.append_flat (by decide)).tidy
  | illegalScope =>
    show Tidy .tags "(illegal scope)"
    decide
  | _ => exact Flat.tidy (by simp +decide [text])

end Disasm68
