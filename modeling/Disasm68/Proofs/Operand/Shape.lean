import Disasm68.Proofs.Operand.IndexWord
import Disasm68.Proofs.Operand.Parts

/-!
# The shape of indexed addresses

An indexed address lists its parts in parentheses, or some of them in brackets and the others
behind (`Shaped`). There is always something to list, and in a shaped text no brackets are empty and
no comma is doubled or dangling (`Shaped.tidy`).

`FullIndex.text` prints a displacement of zero where no register is left to list, but it does not
ask on which side of the brackets the register is. So the brackets are empty if the only register is
an index behind them and the displacement in them is zero. `Cursor.shaped_effectiveAddress_iff` says
that all other indexed addresses are shaped.
-/

namespace Disasm68

open Text

/-- The texts of indexed addresses. Without indirection their parts stand in parentheses, and there
is one at least. With indirection they stand in brackets within the parentheses, again one at least,
and behind the brackets there may be an index register and a displacement. -/
inductive Shaped : String → Prop where
  | direct (d : Option Long) (b : Option Base) (i : Option Index) (hne : Item.parts d b i ≠ []) :
      Shaped ("(" ++ Item.listed (Item.parts d b i) ++ ")")
  | indirect (d : Option Long) (b : Option Base) (i : Option Index) (hne : Item.parts d b i ≠ [])
      (index : Option Index) (outer : Option Long) :
      Shaped ("(" ++ Item.bracketed (Item.parts d b i)
        (Item.names none index ++ (outer.map .displacement).toList) ++ ")")

namespace Item

theorem solid_text (item : Item) : Solid .brackets item.text :=
  item.spelled_text.solid (by decide)

theorem solid_texts (items : List Item) : ∀ s ∈ items.map text, Solid .brackets s :=
  List.forall_mem_map.mpr fun item _ => item.solid_text

variable {items inner : List Item}

theorem solid_listed (hne : items ≠ []) : Solid .brackets (listed items) :=
  .intercalate (.singleton ',') (mt List.map_eq_nil_iff.mp hne) (solid_texts items)

theorem solid_bracketed (hne : inner ≠ []) (outer : List Item) :
    Solid .brackets (bracketed inner outer) := by
  refine .intercalate (.singleton ',') (List.cons_ne_nil _ _) (List.forall_mem_cons.mpr ⟨?_, ?_⟩)
  · exact (solid_listed hne).enclose rfl rfl (by decide) (by decide)
  · exact solid_texts outer

/-- Empty brackets are not tidy. -/
theorem not_tidy_bracketed_nil (outer : List Item) :
    ¬ Tidy .brackets ("(" ++ bracketed [] outer ++ ")") := by
  obtain ⟨t, ht⟩ := exists_intercalate_cons "," ("[" ++ listed [] ++ "]") (outer.map text)
  have hbegin : ("(" ++ bracketed [] outer ++ ")").toList = '(' :: '[' :: ']' :: (t ++ ")").toList := by
    rw [bracketed, ht]
    simp [listed]
  intro htidy
  rw [Tidy, hbegin, List.isChain_cons_cons, List.isChain_cons_cons] at htidy
  exact htidy.2.1 (by decide)

end Item

/-- **Nothing is missing in a shaped text.** -/
theorem Shaped.tidy {s : String} (h : Shaped s) : Tidy .brackets s := by
  cases h with
  | direct d b i hne => exact ((Item.solid_listed hne).enclose rfl rfl (by decide) (by decide)).tidy
  | indirect d b i hne index outer =>
    exact ((Item.solid_bracketed hne _).enclose rfl rfl (by decide) (by decide)).tidy

namespace FullIndex

/-- Whether the only register is an index behind the brackets and there is no displacement in
them. -/
def Hollow (p : FullIndex) : Prop :=
  p.indirection = .postindexed ∧ p.base = none ∧ p.displacement = 0

variable {p : FullIndex}

/-- An address that is not hollow is shaped. -/
theorem shaped_text (h : ¬ p.Hollow) : Shaped p.text := by
  rw [text_eq]
  cases hkind : p.indirection with
  | direct => exact .direct _ _ _ p.parts_ne_nil
  | preindexed => exact .indirect _ _ _ p.parts_ne_nil _ _
  | postindexed =>
    refine .indirect _ _ _ (fun hnil => h ⟨hkind, ?_⟩) _ _
    obtain ⟨hd, hb, -⟩ := Item.parts_eq_nil_iff.mp hnil
    exact ⟨hb, (shownDisplacement_eq_none_iff.mp hd).1⟩

/-- The brackets of a hollow address are empty. -/
theorem text_hollow (hsound : p.Sound) (h : p.Hollow) :
    ∃ outer, p.text = "(" ++ Item.bracketed [] outer ++ ")" := by
  obtain ⟨hkind, hb, hd⟩ := h
  have hnone : p.shownDisplacement = none :=
    shownDisplacement_eq_none_iff.mpr ⟨hd, fun hno => hsound.index_ne_none hkind hno.2⟩
  have hnil : Item.parts p.shownDisplacement p.base none = [] :=
    Item.parts_eq_nil_iff.mpr ⟨hnone, hb, rfl⟩
  rw [text_eq, hkind]
  exact ⟨_, by rw [hnil]⟩

/-- **Which addresses are shaped**: all but the hollow ones, which are not even tidy. -/
theorem Sound.shaped_text_iff (hsound : p.Sound) :
    (Shaped p.text ↔ ¬ p.Hollow) ∧ (Tidy .brackets p.text ↔ ¬ p.Hollow) := by
  have hhollow : p.Hollow → ¬ Tidy .brackets p.text := by
    intro h
    obtain ⟨outer, houter⟩ := text_hollow hsound h
    rw [houter]
    exact Item.not_tidy_bracketed_nil outer
  refine ⟨⟨fun hshaped h => hhollow h hshaped.tidy, shaped_text⟩, fun htidy h => hhollow h htidy, ?_⟩
  exact fun h => (shaped_text h).tidy

end FullIndex

/-- A brief index word lists all three parts. -/
theorem EffectiveAddress.shaped_brief (base : Base) (d : Byte) (index : Index) :
    Shaped (EffectiveAddress.brief base d index).text := by
  have htext : (EffectiveAddress.brief base d index).text =
      "(" ++ Item.listed (Item.parts (some (d.signExtend 32)) (some base) (some index)) ++ ")" := by
    simp [text, Item.listed, Item.parts, Item.names, Item.text, Hex.signed_signExtend,
      String.append_assoc]
  rw [htext]
  exact .direct _ _ _ (by simp [Item.parts])

namespace Cursor

/-- Whether the index word under a cursor is a full one that leaves out its base, adds its index
behind an indirection and has a base displacement that is zero. -/
def Hollow (c : Cursor) : Prop :=
  c.Extended ∧ c.word.getLsbD 7 = true ∧ 4 < c.word.extractLsb' 0 3 ∧
    (c.advance 1).displacement (c.word.extractLsb' 4 2) = 0

variable {c : Cursor} {field : BitVec 6} {size : Size}

theorem hollow_fullAddress_iff {base : Base} (hformat : c.Extended) :
    (c.fullAddress base).Hollow ↔ c.Hollow := by
  have hbase : (c.fullAddress base).base = none ↔ c.word.getLsbD 7 = true := by
    simp [fullAddress]
  have hkind : (c.fullAddress base).indirection = .postindexed ↔ 4 < c.word.extractLsb' 0 3 := by
    rw [show (c.fullAddress base).indirection = IndexWord.indirection ⟨c.word⟩ from
      (IndexWord.indirection_eq c.word).symm]
    exact IndexWord.indirection_eq_postindexed_iff
  unfold FullIndex.Hollow Hollow
  rw [hkind, hbase]
  constructor
  · rintro ⟨hselection, hbit, hd⟩
    exact ⟨hformat, hbit, hselection, hd⟩
  · rintro ⟨-, hbit, hselection, hd⟩
    exact ⟨hselection, hbit, hd⟩

/-- **Indexed addresses are shaped** if they are addresses at all, whatever the processor is and
whatever is in memory, except for the hollow ones. These have empty brackets. -/
theorem shaped_effectiveAddress_iff (hfield : AddressMode.isIndexed field = true)
    (hnull : (c.effectiveAddress field size).text ≠ "0")
    (hreserved : (c.effectiveAddress field size).text ≠ "<invalid mode>") :
    (Shaped (c.effectiveAddress field size).text ↔ ¬ c.Hollow) ∧
      (Tidy .brackets (c.effectiveAddress field size).text ↔ ¬ c.Hollow) := by
  obtain ⟨base, hdecoded⟩ := c.indexed_of_isIndexed size hfield
  unfold effectiveAddress at hnull hreserved ⊢
  generalize (EffectiveAddress.decode c.cpu.indexFormat field size).run c = r
    at hdecoded hnull hreserved ⊢
  cases hdecoded with
  | null => exact absurd rfl hnull
  | scaled | reserved => exact absurd rfl hreserved
  | brief hformat =>
    have hshaped := EffectiveAddress.shaped_brief base c.byte (.ofWord c.word)
    have hhollow : ¬ c.Hollow := fun h => hformat h.1
    exact ⟨iff_of_true hshaped hhollow, iff_of_true hshaped.tidy hhollow⟩
  | full hformat _ hmeaning =>
    have hsound : (c.fullAddress base).Sound := EffectiveAddress.sound_fullAddress base
      (Bool.eq_false_iff.mpr (mt IndexWord.isReserved_iff.mp hmeaning))
    rw [← hollow_fullAddress_iff hformat]
    exact hsound.shaped_text_iff

/-- An index word with all parts but the base. -/
theorem shaped_effectiveAddress_without_base :
    let c : Cursor := ⟨Image.memory ⟨#[0x19, 0xa6, 0xff, 0xf0, 0x00, 0x04], 0⟩, .m68040, 0⟩
    (c.effectiveAddress 0x3b .long).text = "([-$10],D1.l,$4)" ∧
      Shaped (c.effectiveAddress 0x3b .long).text ∧
      Tidy .brackets (c.effectiveAddress 0x3b .long).text := by
  intro c
  have htext : (c.effectiveAddress 0x3b .long).text = "([-$10],D1.l,$4)" := by decide +kernel
  have hhollow : ¬ c.Hollow := by
    rintro ⟨-, -, -, hd⟩
    exact absurd hd (by decide +kernel)
  obtain ⟨hshaped, htidy⟩ := @shaped_effectiveAddress_iff c 0x3b .long (by decide)
    (by rw [htext]; decide) (by rw [htext]; decide)
  exact ⟨htext, hshaped.mpr hhollow, htidy.mpr hhollow⟩

/-- An index word that adds the index behind an indirection through nothing. -/
theorem shaped_effectiveAddress_ne :
    let c : Cursor := ⟨⟨fun _ => 0x0195⟩, .m68020, 0⟩
    AddressMode.isIndexed 0x30 = true ∧ (c.effectiveAddress 0x30 .word).text = "([],D0.w)" ∧
      ¬ Shaped (c.effectiveAddress 0x30 .word).text ∧
      ¬ Tidy .brackets (c.effectiveAddress 0x30 .word).text := by
  intro c
  have htext : (c.effectiveAddress 0x30 .word).text = "([],D0.w)" := by decide +kernel
  have htidy : ¬ Tidy .brackets (c.effectiveAddress 0x30 .word).text := by
    rw [htext]
    decide
  exact ⟨by decide, htext, fun h => htidy h.tidy, htidy⟩

end Cursor

end Disasm68
