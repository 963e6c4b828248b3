import Disasm68.Proofs.Family.IndexWords
import Disasm68.Proofs.Operand.Location

/-!
# Index words without an address

A full index word can fail to give an address in two ways. It is *reserved* if it has no size for
its base displacement or a selection without a meaning, and it is *absent* if it leaves out base,
index, base displacement and indirection, so that nothing remains to be added up.

`EffectiveAddress.decode` asks first whether a word is *bare*, that is whether it suppresses base and
index and needs no further words for its base displacement. Bare words are read as the address zero.
All absent words are bare, but so are some reserved ones and one that indirects through memory.
`IndexWord.text_iff` says which texts are shown, and that they tell reserved and absent words apart
exactly for the words that are absent if they are bare.

The judgment `Cursor.Indexed` lists what an indexed field can be decoded to, and
`Cursor.indexed_of_isIndexed` says that there is nothing else.
-/

namespace Disasm68

/-! ## The words -/

namespace IndexWord

/-- A full index word that the processor keeps for later: there is no size for its base displacement,
or its selection has no meaning, with any index or where the index is suppressed. -/
def Reserved (w : Word) : Prop :=
  w.extractLsb' 4 2 = 0 ∨ w.extractLsb' 0 3 = 4 ∨ w.getLsbD 6 = true ∧ 4 < w.extractLsb' 0 3

/-- A full index word that suppresses base and index, has a null base displacement and selects no
indirection. -/
def Absent (w : Word) : Prop :=
  w.getLsbD 7 = true ∧ w.getLsbD 6 = true ∧ w.extractLsb' 4 2 = 1 ∧ w.extractLsb' 0 3 = 0

/-- A full index word that suppresses base and index, has neither a word nor a long as base
displacement, and does not select indirection behind the index with a word or a long as outer
displacement. -/
def Bare (w : Word) : Prop :=
  w.getLsbD 7 = true ∧ w.getLsbD 6 = true ∧ w.getLsbD 5 = false ∧
    w.extractLsb' 0 3 ≠ 2 ∧ w.extractLsb' 0 3 ≠ 3

instance (w : Word) : Decidable (Reserved w) :=
  inferInstanceAs (Decidable (_ ∨ _ ∨ _ ∧ _))

instance (w : Word) : Decidable (Absent w) :=
  inferInstanceAs (Decidable (_ ∧ _ ∧ _ ∧ _))

instance (w : Word) : Decidable (Bare w) :=
  inferInstanceAs (Decidable (_ ∧ _ ∧ _ ∧ _ ∧ _))

variable {w : Word}

theorem isReserved_iff : isReserved ⟨w⟩ = true ↔ Reserved w := by
  have hbehind : decide (4 < selection ⟨w⟩) = true ↔ 4 < w.extractLsb' 0 3 := decide_eq_true_iff
  rw [isReserved, Bool.or_eq_true, Bool.or_eq_true, Bool.and_eq_true, hbehind, beq_iff_eq,
    beq_iff_eq, or_assoc]
  rfl

theorem isNull_iff : isNull ⟨w⟩ = true ↔ Bare w := by
  have hselection : ∀ s : BitVec 3, (s.getLsbD 2 || !s.getLsbD 1) = true ↔ s ≠ 2 ∧ s ≠ 3 := by
    decide
  have hsize : (w.extractLsb' 4 2).getLsbD 1 = w.getLsbD 5 := by simp
  simp only [isNull, displacementSize, selection, suppressesIndex, suppressesBase, hsize,
    Bool.and_eq_true, hselection, Bool.not_eq_true', Bare, and_assoc]

theorem Absent.bare (h : Absent w) : Bare w := by
  obtain ⟨hbase, hindex, hsize, hselection⟩ := h
  have hbit : w.getLsbD 5 = (w.extractLsb' 4 2).getLsbD 1 := by simp
  refine ⟨hbase, hindex, ?_, ?_, ?_⟩
  · rw [hbit, hsize]
    decide
  · rw [hselection]
    decide
  · rw [hselection]
    decide

theorem Absent.not_reserved (h : Absent w) : ¬ Reserved w := by
  obtain ⟨-, -, hsize, hselection⟩ := h
  rw [Reserved, hsize, hselection]
  rintro (hno | hno | ⟨-, hno⟩) <;> revert hno <;> decide

end IndexWord

/-! ## What an indexed field is decoded to -/

namespace Cursor

open IndexWord (Bare Reserved)

/-- Whether the word under a cursor is read as a full index word. -/
def Extended (c : Cursor) : Prop :=
  c.cpu.indexFormat = .full ∧ c.word.getLsbD 8 = true

/-- The address that an indexed field stands for relative to a base, with the number of words it
takes. -/
inductive Indexed (c : Cursor) (base : Base) : EffectiveAddress × Nat → Prop where
  | brief (hformat : ¬ c.Extended) :
      Indexed c base (.brief base c.byte (.ofWord c.word), 1)
  /-- A scale in a word of a processor that has none. -/
  | scaled (hformat : c.cpu.indexFormat = .brief) : Indexed c base (.reserved, 1)
  | null (hformat : c.Extended) (hbare : Bare c.word) : Indexed c base (.null, 1)
  | reserved (hformat : c.Extended) (hbare : ¬ Bare c.word) (hreserved : Reserved c.word) :
      Indexed c base (.reserved, 1)
  | full (hformat : c.Extended) (hbare : ¬ Bare c.word) (hreserved : ¬ Reserved c.word)
      (words : Nat) : Indexed c base (.full (c.fullAddress base), words)

variable {c : Cursor} {field : BitVec 6}

/-- What is read of a full index word, and of the words behind it. -/
theorem indexed_decodeFull (base : Base) (hformat : c.Extended) :
    let r := (EffectiveAddress.decodeFull base ⟨c.word⟩).run (c.advance 1)
    c.Indexed base (r.1, 1 + r.2) := by
  intro r
  by_cases hbare : Bare c.word
  · have hr : r = (.null, 0) := by
      simp only [r, EffectiveAddress.decodeFull, if_pos (IndexWord.isNull_iff.mpr hbare)]
      rfl
    rw [hr]
    exact .null hformat hbare
  have hnull := Bool.eq_false_iff.mpr (mt IndexWord.isNull_iff.mp hbare)
  by_cases hreserved : Reserved c.word
  · have hr : r = (.reserved, 0) := by
      simp only [r, EffectiveAddress.decodeFull, hnull, Bool.false_eq_true, if_false,
        if_pos (IndexWord.isReserved_iff.mpr hreserved)]
      rfl
    rw [hr]
    exact .reserved hformat hbare hreserved
  · have hr : r.1 = .full (c.fullAddress base) :=
      EffectiveAddress.run_decodeFull base hnull
        (Bool.eq_false_iff.mpr (mt IndexWord.isReserved_iff.mp hreserved))
    rw [hr]
    exact .full hformat hbare hreserved _

theorem indexed_decodeIndexed (c : Cursor) (base : Base) :
    c.Indexed base ((EffectiveAddress.decodeIndexed c.cpu.indexFormat base).run c) := by
  have hindex : IndexWord.index ⟨c.word⟩ = .ofWord c.word := IndexWord.index_eq c.word
  unfold EffectiveAddress.decodeIndexed
  cases hcpu : c.cpu.indexFormat with
  | brief =>
    show c.Indexed base (if (IndexWord.index ⟨c.word⟩).scale = 0 then _ else _, 1)
    split
    · rw [hindex]
      refine .brief fun hformat => ?_
      rw [hformat.1] at hcpu
      cases hcpu
    · exact .scaled hcpu
  | full =>
    show c.Indexed base (let r := Reader.run (if IndexWord.isFull ⟨c.word⟩ then _ else _) _
      (r.1, 1 + r.2))
    cases hfull : IndexWord.isFull ⟨c.word⟩ with
    | true =>
      rw [if_pos rfl]
      exact indexed_decodeFull base ⟨hcpu, hfull⟩
    | false =>
      rw [if_neg Bool.false_ne_true, hindex]
      refine .brief fun hformat => ?_
      rw [show IndexWord.isFull ⟨c.word⟩ = true from hformat.2] at hfull
      cases hfull

/-- **An indexed field is decoded by the judgment**, relative to one of the two kinds of bases. -/
theorem indexed_of_isIndexed (c : Cursor) (size : Size)
    (hfield : AddressMode.isIndexed field = true) :
    ∃ base, c.Indexed base ((EffectiveAddress.decode c.cpu.indexFormat field size).run c) := by
  have hmode : AddressMode.ofField? field = some .index ∨
      AddressMode.ofField? field = some .pcIndex := by
    revert field
    decide
  unfold EffectiveAddress.decode
  rcases hmode with hmode | hmode
  · rw [hmode]
    exact ⟨_, indexed_decodeIndexed c _⟩
  · rw [hmode]
    exact ⟨_, indexed_decodeIndexed c _⟩

end Cursor

/-! ## What is shown -/

/-- An address with parts is shown in parentheses, unlike one without. -/
theorem FullIndex.Sound.text_ne {parts : FullIndex} (h : parts.Sound) :
    parts.text ≠ "0" ∧ parts.text ≠ "<invalid mode>" := by
  obtain ⟨s, htext, hs⟩ := h.spells_text
  have hkind : Location.Kind.ofText parts.text = .memory := by
    rw [htext]
    exact (Location.Spells.memory hs).kind_eq
  constructor
  · intro heq
    rw [heq] at hkind
    exact absurd hkind (by decide)
  · intro heq
    rw [heq] at hkind
    exact absurd hkind (by decide)

namespace IndexWord

variable {c : Cursor} {field : BitVec 6} {size : Size}

/-- **Which texts full index words have.** On processors with full index words, whatever is in
memory, an indexed field is shown as `0` for a bare word and as `<invalid mode>` for a reserved word
that is not bare, and in both cases nothing behind the word is consumed. So these texts mean what
they should, `<invalid mode>` that the word is reserved and `0` that it is not and that everything
is absent, exactly for the words that are absent if they are bare. -/
theorem text_iff
    (hcpu : c.cpu = .m68ec020 ∨ c.cpu = .m68020 ∨ c.cpu = .m68030 ∨ c.cpu = .m68040)
    (hfield : AddressMode.isIndexed field = true) (hfull : c.word.getLsbD 8 = true) :
    let text := (c.effectiveAddress field size).text
    let words := ((EffectiveAddress.decode c.cpu.indexFormat field size).run c).2
    (text = "<invalid mode>" ↔ Reserved c.word ∧ ¬ Bare c.word) ∧
      (text = "0" ↔ Bare c.word) ∧
      (text = "<invalid mode>" ∨ text = "0" → words = 1) ∧
      ((text = "<invalid mode>" ↔ Reserved c.word) ∧
          (text = "0" ↔ ¬ Reserved c.word ∧ Absent c.word) ↔
        (Bare c.word → Absent c.word)) := by
  intro text words
  have hformat : c.Extended := by
    refine ⟨?_, hfull⟩
    rcases hcpu with h | h | h | h <;> rw [h] <;> rfl
  have hshown : (text = "<invalid mode>" ↔ Reserved c.word ∧ ¬ Bare c.word) ∧
      (text = "0" ↔ Bare c.word) ∧ (text = "<invalid mode>" ∨ text = "0" → words = 1) := by
    obtain ⟨base, hdecoded⟩ := c.indexed_of_isIndexed size hfield
    have hne : "0" ≠ "<invalid mode>" := by decide
    generalize hr : (EffectiveAddress.decode c.cpu.indexFormat field size).run c = r at hdecoded
    have htext : text = r.1.text := congrArg (·.1.text) hr
    have hwords : words = r.2 := congrArg Prod.snd hr
    rw [htext, hwords]
    cases hdecoded with
    | brief hbrief => exact absurd hformat hbrief
    | scaled hbrief =>
      rw [hformat.1] at hbrief
      cases hbrief
    | null _ hbare => simp [EffectiveAddress.text, hbare]
    | reserved _ hbare hreserved => simp [EffectiveAddress.text, hbare, hreserved]
    | full _ hbare hreserved n =>
      obtain ⟨hnull, hinvalid⟩ :=
        (EffectiveAddress.sound_fullAddress base
          (Bool.eq_false_iff.mpr (mt isReserved_iff.mp hreserved))).text_ne
      simp [EffectiveAddress.text, hbare, hreserved, hnull, hinvalid]
  obtain ⟨hinvalid, hzero, hwords⟩ := hshown
  refine ⟨hinvalid, hzero, hwords, ?_⟩
  rw [hinvalid, hzero]
  constructor
  · intro hdoc hbare
    exact (hdoc.2.mp hbare).2
  · intro habsent
    refine ⟨⟨fun h => h.1, fun hreserved => ⟨hreserved, fun hbare => ?_⟩⟩,
      ⟨fun hbare => ⟨(habsent hbare).not_reserved, habsent hbare⟩, fun h => h.2.bare⟩⟩
    exact (habsent hbare).not_reserved hreserved

/-- A word that suppresses base and index, is reserved and is not bare. -/
theorem text_iff_suppressed :
    let c : Cursor := ⟨⟨fun _ => 0x01e7⟩, .m68030, 0x1001⟩
    let text := (c.effectiveAddress 0x3b .long).text
    AddressMode.isIndexed 0x3b = true ∧ c.word.getLsbD 8 = true ∧ Reserved c.word ∧
      ¬ Bare c.word ∧ text = "<invalid mode>" ∧ text ≠ "0" ∧
      ((EffectiveAddress.decode c.cpu.indexFormat 0x3b .long).run c).2 = 1 := by
  intro c text
  have hreserved : Reserved c.word := by decide
  have hbare : ¬ Bare c.word := by decide
  obtain ⟨hinvalid, hzero, hwords, -⟩ :=
    @text_iff c 0x3b .long (.inr (.inr (.inl rfl))) (by decide) (by decide)
  have htext : text = "<invalid mode>" := hinvalid.mpr ⟨hreserved, hbare⟩
  exact ⟨by decide, by decide, hreserved, hbare, htext, mt hzero.mp hbare, hwords (.inl htext)⟩

/-- A reserved word, and one that indirects through memory, both shown as zero. -/
theorem text_bare_ne :
    let reserved : Cursor := ⟨⟨fun _ => 0x01c0⟩, .m68020, 0⟩
    let indirect : Cursor := ⟨⟨fun _ => 0x01d1⟩, .m68020, 0⟩
    AddressMode.isIndexed 0x30 = true ∧
      (reserved.word.getLsbD 8 = true ∧ Reserved reserved.word ∧
        (reserved.effectiveAddress 0x30 .word).text = "0") ∧
      (indirect.word.getLsbD 8 = true ∧ ¬ Reserved indirect.word ∧ ¬ Absent indirect.word ∧
        (indirect.effectiveAddress 0x30 .word).text = "0") := by
  decide +kernel

end IndexWord

end Disasm68
