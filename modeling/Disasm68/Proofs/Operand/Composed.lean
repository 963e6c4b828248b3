import Disasm68.Operand
import Disasm68.Proofs.Operand.Parts

/-!
# What operands are composed of

Operands are composed of texts that are spelled with the letters of `Operand.isLetter`, with single
commas and blanks between them (`Operand.Complete.composed_text`). So something is shown for them,
and no operand contains the separator of operands or has a part of it at an end. Two operands are
not like that: an address of an undefined mode, which is shown as such, and a list of no registers,
which is shown as nothing.
-/

namespace Disasm68

open Text

/-- The characters that stand between and around items. -/
def Operand.signs : List Char :=
  ['#', '+', ':', '/', '(', ')', '[', ']', '\x7b', '\x7d', '<', '>']

/-- The characters that operands are written with, apart from commas and blanks. -/
def Operand.isLetter (c : Char) : Bool :=
  Item.isLetter c || signs.contains c

/-! ## Effective addresses -/

namespace Item

/-- The letters of items are letters of operands. -/
theorem spelled_operand {s : String} (h : Spelled isLetter s) : Spelled Operand.isLetter s :=
  h.mono fun c hc => by rw [Operand.isLetter, hc, Bool.true_or]

theorem composed_texts (items : List Item) :
    ∀ s ∈ items.map text, Composed Operand.isLetter s :=
  List.forall_mem_map.mpr fun item _ => .spelled (spelled_operand item.spelled_text)

theorem composed_listed {items : List Item} (hne : items ≠ []) :
    Composed Operand.isLetter (listed items) :=
  .intercalate (mt List.map_eq_nil_iff.mp hne) (composed_texts items)

/-- There need not be an item in the brackets. -/
theorem composed_bracketed (inner outer : List Item) :
    Composed Operand.isLetter (bracketed inner outer) := by
  refine .intercalate (List.cons_ne_nil _ _) (List.forall_mem_cons.mpr ⟨?_, composed_texts outer⟩)
  by_cases hnil : inner = []
  · rw [hnil]
    exact .spelled (by decide)
  · exact .enclose (by decide) (by decide) (composed_listed hnil)

end Item

theorem Register.spelled_text (r : Register) : Spelled Operand.isLetter r.text :=
  Item.spelled_operand (Item.spelled_register r)

theorem Base.spelled_text (b : Base) : Spelled Operand.isLetter b.text :=
  Item.spelled_operand (Item.spelled_base b)

theorem Hex.spelled_lower (n : Nat) : Spelled Operand.isLetter (lower n) :=
  Item.spelled_operand (Item.spelled_lower n)

theorem Hex.spelled_lowerPadded (width n : Nat) : Spelled Operand.isLetter (lowerPadded width n) := by
  have hdigits := spelled_lower n
  rw [lowerPadded, List.leftpad, String.ofList_append]
  refine ⟨fun hempty => hdigits.ne_empty (String.append_eq_empty_iff.mp hempty).2, ?_⟩
  refine written_append.mpr ⟨fun c hc => ?_, hdigits.written⟩
  rw [String.toList_ofList] at hc
  rw [List.eq_of_mem_replicate hc]
  decide

theorem Hex.spelled_signed {w : Nat} (v : BitVec w) : Spelled Operand.isLetter (signed v) :=
  Item.spelled_operand (Item.spelled_signed v)

theorem Hex.spelled_unsigned {w : Nat} (v : BitVec w) : Spelled Operand.isLetter (unsigned v) :=
  .append (by decide) (spelled_lower _)

theorem Datum.spelled_unsigned (value : Datum) : Spelled Operand.isLetter value.unsigned := by
  cases value <;> exact Hex.spelled_unsigned _

theorem Datum.spelled_signed (value : Datum) : Spelled Operand.isLetter value.signed := by
  cases value <;> exact Hex.spelled_signed _

theorem FullIndex.composed_text (p : FullIndex) : Composed Operand.isLetter p.text := by
  rw [text_eq]
  refine .enclose (by decide) (by decide) ?_
  cases p.indirection with
  | direct => exact Item.composed_listed p.parts_ne_nil
  | preindexed | postindexed => exact Item.composed_bracketed _ _

/-- Whether an address has a mode. -/
def EffectiveAddress.Defined : EffectiveAddress → Prop
  | .undefined _ => False
  | _ => True

/-- **Addresses of a mode are composed.** -/
theorem EffectiveAddress.Defined.composed_text {ea : EffectiveAddress} (h : ea.Defined) :
    Composed Operand.isLetter ea.text := by
  have hbase (b : Base) : Composed Operand.isLetter b.text := .spelled b.spelled_text
  have hsigned {w : Nat} (v : BitVec w) : Composed Operand.isLetter (Hex.signed v) :=
    .spelled (Hex.spelled_signed v)
  -- what an address relative to a base begins with
  have hdisplaced {w : Nat} (v : BitVec w) (b : Base) :
      Composed Operand.isLetter ("(" ++ Hex.signed v ++ "," ++ b.text) :=
    .join "," (.inl rfl) (.append (.spelled (by decide)) (hsigned v)) (hbase b)
  cases ea with
  | undefined field => exact h.elim
  | register r => exact .spelled r.spelled_text
  | indirect n => exact .enclose (by decide) (by decide) (hbase _)
  | postincrement n => exact .enclose (by decide) (by decide) (hbase _)
  | predecrement n => exact .enclose (by decide) (by decide) (hbase _)
  | displaced base d => exact .append (hdisplaced d base) (.spelled (by decide))
  | short address => exact .enclose (by decide) (by decide) (hsigned _)
  | absolute address => exact .enclose (by decide) (by decide) (hsigned _)
  | immediate value => exact .append (.spelled (by decide)) (.spelled value.spelled_unsigned)
  | brief base d index =>
    have hindex : Spelled Operand.isLetter index.text :=
      Item.spelled_operand (Item.spelled_index index)
    exact .append (.join "," (.inl rfl) (hdisplaced d base) (.spelled hindex)) (.spelled (by decide))
  | full parts => exact parts.composed_text
  | null => exact .spelled (by decide)
  | reserved =>
    exact .join (s := "<invalid") (t := "mode>") " " (.inr rfl) (.spelled (by decide))
      (.spelled (by decide))

/-! ## Lists of registers -/

namespace RegisterList

/-- There are no runs in bits that are not set. The induction is on the bits. -/
theorem runs_eq_nil_iff {start : Nat} {bits : List Bool} :
    runs start bits = [] ↔ ∀ bit ∈ bits, bit = false := by
  induction bits generalizing start with
  | nil => simp [runs]
  | cons bit bits ih =>
    cases bit with
    | false => simp [runs, ih]
    | true =>
      refine iff_of_false (fun hnil => ?_) (fun hall => ?_)
      · rw [runs] at hnil
        split at hnil
        · cases hnil
        · split at hnil <;> cases hnil
      · exact absurd (hall true List.mem_cons_self) (by decide)

/-- Every bit of a mask belongs to a bank. -/
theorem eq_zero_iff {mask : Word} : mask = 0 ↔ ∀ bank, ∀ bit ∈ bankBits mask bank, bit = false := by
  constructor
  · rintro rfl bank
    cases bank <;> decide
  · intro h
    refine BitVec.eq_of_getLsbD_eq fun i hi => ?_
    rw [show (0 : Word) = 0#16 from rfl, BitVec.getLsbD_zero]
    by_cases hdata : i < 8
    · exact h .data _ (List.mem_map.mpr ⟨i, List.mem_range.mpr hdata, rfl⟩)
    · refine h .address _ (List.mem_map.mpr ⟨i - 8, List.mem_range.mpr (by omega), ?_⟩)
      rw [show 8 + (i - 8) = i by omega]

theorem spelled_runText (bank : Bank) (run : Nat × Nat) :
    Spelled Operand.isLetter (runText bank run) := by
  have hbank : Spelled Operand.isLetter bank.letter := by cases bank <;> decide
  have hnumber (n : Nat) : Spelled Operand.isLetter (toString n) :=
    Spelled.ofDigits (by decide) (by decide) n
  unfold runText
  split
  · exact hbank.append (hnumber _)
  · exact (((hbank.append (hnumber _)).append (by decide)).append hbank).append (hnumber _)

/-- The list of a mask with a bit set is spelled. -/
theorem spelled_text {mask : Word} (h : mask ≠ 0) : Spelled Operand.isLetter (text mask) := by
  refine .intercalate (by decide) (fun hnil => h ?_) (List.forall_mem_append.mpr ⟨?_, ?_⟩)
  · obtain ⟨hdata, haddress⟩ := List.append_eq_nil_iff.mp hnil
    rw [List.map_eq_nil_iff, runs_eq_nil_iff] at hdata haddress
    refine eq_zero_iff.mpr fun bank => ?_
    cases bank with
    | data => exact hdata
    | address => exact haddress
  · exact List.forall_mem_map.mpr fun run _ => spelled_runText .data run
  · exact List.forall_mem_map.mpr fun run _ => spelled_runText .address run

/-- Nothing is shown for no registers. -/
theorem text_eq_empty_iff {mask : Word} : text mask = "" ↔ mask = 0 := by
  refine ⟨fun hempty => ?_, ?_⟩
  · by_contra h
    exact (spelled_text h).ne_empty hempty
  · rintro rfl
    decide

end RegisterList

/-! ## Other operands -/

/-- A control register is spelled with a name of the table or with its code. -/
theorem ControlRegister.spelled_text (code : BitVec 12) : Spelled Operand.isLetter (text code) := by
  have hknown : ∀ entry ∈ known, Spelled Operand.isLetter entry.2.1 := by decide
  unfold text
  split
  case h_1 name tag hlookup =>
    obtain ⟨before, after, hsplit, -⟩ := List.lookup_eq_some_iff.mp hlookup
    have hmem : (code, name, tag) ∈ known := by
      rw [hsplit]
      exact List.mem_append_right _ List.mem_cons_self
    exact hknown _ hmem
  case h_2 => exact Hex.spelled_unsigned _

theorem SpecialRegister.spelled_text (r : SpecialRegister) : Spelled Operand.isLetter r.text := by
  cases r <;> decide

theorem FieldBound.spelled_text (bound : FieldBound) : Spelled Operand.isLetter bound.text := by
  cases bound with
  | constant n => exact .ofDigits (by decide) (by decide) n
  | register n => exact Register.spelled_text _

theorem BitField.spelled_text (field : BitField) : Spelled Operand.isLetter field.text := by
  have hoffset : Spelled Operand.isLetter ("\x7b" ++ field.offset.text) :=
    .append (by decide) field.offset.spelled_text
  exact ((hoffset.append (by decide)).append field.width.spelled_text).append (by decide)

namespace Operand

/-- Whether the address of an operand has a mode. -/
def Defined : Operand → Prop
  | .address ea | .bits ea _ => ea.Defined
  | _ => True

/-- Whether there is something to show for an operand, and it is not an address without a mode. -/
def Complete : Operand → Prop
  | .address ea | .bits ea _ => ea.Defined
  | .registers mask => mask ≠ 0
  | _ => True

variable {o : Operand}

@[simp] theorem complete_address {ea : EffectiveAddress} : (address ea).Complete ↔ ea.Defined :=
  Iff.rfl

@[simp] theorem complete_bits {ea : EffectiveAddress} {field : BitField} :
    (bits ea field).Complete ↔ ea.Defined := Iff.rfl

@[simp] theorem complete_registers {mask : Word} : (registers mask).Complete ↔ mask ≠ 0 := Iff.rfl

/-- All other operands are complete. -/
@[simp] theorem complete_of_ne (haddress : ∀ ea, o ≠ .address ea)
    (hbits : ∀ ea field, o ≠ .bits ea field) (hregisters : ∀ mask, o ≠ .registers mask) :
    o.Complete := by
  cases o with
  | address ea => exact absurd rfl (haddress ea)
  | bits ea field => exact absurd rfl (hbits ea field)
  | registers mask => exact absurd rfl (hregisters mask)
  | _ => trivial

theorem Complete.defined (h : o.Complete) : o.Defined := by
  cases o <;> first | exact h | trivial

/-- **Complete operands are composed.** -/
theorem Complete.composed_text (h : o.Complete) (origin : Long) :
    Composed isLetter (o.text origin) := by
  have hnumber (n : Nat) : Spelled isLetter (toString n) :=
    Spelled.ofDigits (by decide) (by decide) n
  have hdata (n : BitVec 3) : Spelled isLetter (Register.mk .data n).text :=
    Register.spelled_text _
  have hcolon {s t : String} (hs : Spelled isLetter s)
      (ht : Spelled isLetter t) : Spelled isLetter (s ++ ":" ++ t) := (hs.append (by decide)).append ht
  cases o with
  | address ea => exact EffectiveAddress.Defined.composed_text h
  | immediate value => exact .spelled (.append (by decide) value.spelled_unsigned)
  | signed value => exact .spelled (.append (by decide) value.spelled_signed)
  | count n => exact .spelled (.append (by decide) (hnumber n))
  | special r => exact .spelled r.spelled_text
  | control code => exact .spelled (ControlRegister.spelled_text code)
  | peripheral d n =>
    have hd : Spelled isLetter ("(" ++ Hex.unsigned d) := .append (by decide) (Hex.spelled_unsigned d)
    exact .append (.join "," (.inl rfl) (.spelled hd) (.spelled (Base.spelled_text _)))
      (.spelled (by decide))
  | registers mask => exact .spelled (RegisterList.spelled_text h)
  | target distance => exact .spelled (Hex.spelled_lower _)
  | bits ea field =>
    exact .join " " (.inr rfl) (EffectiveAddress.Defined.composed_text h)
      (.spelled field.spelled_text)
  | wide high low => exact .spelled (((hdata high).append (by decide)).append (hdata low))
  | division r q => exact .spelled (hcolon (hdata r) (hdata q))
  | comparisons a b u v =>
    exact .spelled (hcolon (hcolon (hcolon (hdata a) (hdata b)) (hdata u)) (hdata v))
  | places a b =>
    have hfirst : Spelled isLetter ("(" ++ a.text ++ "):(") :=
      ((Spelled.append (by decide) a.spelled_text).append (by decide))
    exact .spelled ((hfirst.append b.spelled_text).append (by decide))
  | counter n distance =>
    have hdistance : Spelled isLetter ("#" ++ Hex.signed distance) :=
      .append (by decide) (Hex.spelled_signed _)
    rw [text, show ",#" = "," ++ "#" from rfl, ← String.append_assoc, String.append_assoc]
    exact .join "," (.inl rfl) (.spelled (hdata n)) (.spelled hdistance)
  | raw w => exact .spelled (.append (by decide) (Hex.spelled_lowerPadded 4 _))
  | caches selection => exact .spelled (hnumber _)
  | illegalScope =>
    exact .join (s := "(illegal") (t := "scope)") " " (.inr rfl) (.spelled (by decide))
      (.spelled (by decide))

/-- The separator of operands is not in one of them, nor is a part of it at its ends. -/
theorem Complete.solid_text (h : o.Complete) (origin : Long) : Solid .separators (o.text origin) :=
  (h.composed_text origin).solid (by decide) (by decide)

/-- The characters of an operand whose address has a mode. -/
theorem Defined.forall_mem (h : o.Defined) (origin : Long) :
    ∀ c ∈ (o.text origin).toList, isLetter c = true ∨ c = ',' ∨ c = ' ' := by
  by_cases hcomplete : o.Complete
  · exact (hcomplete.composed_text origin).forall_mem
  · cases o with
    | address | bits => exact absurd h hcomplete
    | registers mask =>
      rw [text, RegisterList.text_eq_empty_iff.mpr (Decidable.not_not.mp hcomplete)]
      exact List.forall_mem_nil _
    | _ => exact absurd trivial hcomplete

end Operand

end Disasm68
