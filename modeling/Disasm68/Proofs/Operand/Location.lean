import Disasm68.Proofs.Operand.EffectiveAddress
import Disasm68.Proofs.Operand.Notation

/-!
# The operands of effective addresses

`Location.at?` reads off the bits of a field and of the words behind it where the operand is. What
`EffectiveAddress.decode` finds is there (`EffectiveAddress.decode_located`), and since the notation
of operands is unambiguous, the text of an address determines its operand
(`EffectiveAddress.location_of_text`).
-/

namespace Disasm68

/-! ## What the bits say -/

/-- The index register of an index word. -/
def Index.ofWord (w : Word) : Index where
  register := ⟨if w.getLsbD 15 then .address else .data, w.extractLsb' 12 3⟩
  isLong := w.getLsbD 11
  scale := w.extractLsb' 9 2

namespace Cursor

/-- The words of a displacement of which two bits give the size. -/
def displacementWords (size : BitVec 2) : Nat :=
  size.toNat - 1

/-- A displacement under a cursor. -/
def displacement (c : Cursor) (size : BitVec 2) : Long :=
  if size = 2 then c.word.signExtend 32 else if size = 3 then c.long else 0

/-- The address of the brief index word under a cursor. -/
def briefAddress (c : Cursor) (base : Base) : FullIndex where
  base := some base
  displacement := c.byte.signExtend 32
  index := some (.ofWord c.word)
  indirection := .direct
  outer := 0

/-- The address of the full index word under a cursor. -/
def fullAddress (c : Cursor) (base : Base) : FullIndex where
  base := if c.word.getLsbD 7 then none else some base
  displacement := (c.advance 1).displacement (c.word.extractLsb' 4 2)
  index := if c.word.getLsbD 6 then none else some (.ofWord c.word)
  indirection :=
    if c.word.extractLsb' 0 2 = 0 then .direct
    else if c.word.getLsbD 2 then .postindexed
    else .preindexed
  outer :=
    (c.advance (1 + displacementWords (c.word.extractLsb' 4 2))).displacement
      (c.word.extractLsb' 0 2)

/-- The address of the index word under a cursor. -/
def indexedAddress (c : Cursor) (base : Base) : FullIndex :=
  if c.cpu.indexFormat = .full ∧ c.word.getLsbD 8 then c.fullAddress base else c.briefAddress base

/-- The effective address that a field selects, decoded from the words under a cursor. -/
def effectiveAddress (c : Cursor) (field : BitVec 6) (size : Size) : EffectiveAddress :=
  ((EffectiveAddress.decode c.cpu.indexFormat field size).run c).1

/-- The value of some size under a cursor. -/
def value (c : Cursor) : Size → Nat
  | .byte => c.byte.toNat
  | .word => c.word.toNat
  | .long => c.long.toNat

end Cursor

/-- Where the operand is that a field selects, with the words that it needs under a cursor. Index
words that are reserved or stand for the address zero are read like all others. -/
def Location.at? (c : Cursor) (field : BitVec 6) (size : Size) : Option Location :=
  let n := field.extractLsb' 0 3
  match (field.extractLsb' 3 3).toNat, n.toNat with
  | 0, _ => some (.register ⟨.data, n⟩)
  | 1, _ => some (.register ⟨.address, n⟩)
  | 2, _ => some (.memory (.displaced (.address n) 0))
  | 3, _ => some (.postincrement n)
  | 4, _ => some (.predecrement n)
  | 5, _ => some (.memory (.displaced (.address n) (c.word.signExtend 32)))
  | 6, _ => some (.memory (c.indexedAddress (.address n)))
  | 7, 0 => some (.short c.word)
  | 7, 1 => some (.absolute c.long)
  | 7, 2 => some (.memory (.displaced .pc (c.word.signExtend 32)))
  | 7, 3 => some (.memory (c.indexedAddress .pc))
  | 7, 4 => some (.immediate (c.value size))
  | _, _ => none

namespace IndexWord

/-- The four bits of an index register are one for the bank and three for the number. -/
theorem index_eq (w : Word) : index ⟨w⟩ = .ofWord w := by
  have hbank : (w.extractLsb' 12 4).msb = w.getLsbD 15 := by
    simp [BitVec.msb_eq_getLsbD_last]
  have hnumber : (w.extractLsb' 12 4).setWidth 3 = w.extractLsb' 12 3 := by
    ext i hi
    simp only [BitVec.getElem_setWidth, BitVec.getElem_extractLsb', BitVec.getLsbD_extractLsb']
    rw [decide_eq_true (by omega : i < 4), Bool.true_and]
  rw [index, Register.ofBits, hbank, hnumber]
  rfl

/-- The selection has the size of the outer displacement in its low bits and the side of the index
in its high one. -/
theorem indirection_eq (w : Word) :
    indirection ⟨w⟩ =
      if w.extractLsb' 0 2 = 0 then .direct
      else if w.getLsbD 2 then .postindexed
      else .preindexed := by
  have hlow : w.extractLsb' 0 2 = (w.extractLsb' 0 3).extractLsb' 0 2 := by
    ext i hi
    simp only [BitVec.getElem_extractLsb', BitVec.getLsbD_extractLsb', Nat.zero_add]
    rw [decide_eq_true (by omega : i < 3), Bool.true_and]
  have hhigh : w.getLsbD 2 = (w.extractLsb' 0 3).getLsbD 2 := by simp
  have hselection : ∀ s : BitVec 3,
      (if s = 0 ∨ s = 4 then Indirection.direct
        else if s < 4 then .preindexed else .postindexed) =
      if s.extractLsb' 0 2 = 0 then .direct
        else if s.getLsbD 2 then .postindexed else .preindexed := by decide
  rw [hlow, hhigh, ← hselection]
  rfl

/-- The selections of an index behind the indirection. -/
theorem indirection_eq_postindexed_iff {w : IndexWord} :
    w.indirection = .postindexed ↔ 4 < w.selection := by
  have hselection : ∀ s : BitVec 3,
      (if s = 0 ∨ s = 4 then Indirection.direct
        else if s < 4 then .preindexed else .postindexed) = .postindexed ↔ 4 < s := by decide
  exact hselection w.selection

/-- Words that add an index behind the indirection without having one are reserved. -/
theorem suppressesIndex_of_postindexed {w : IndexWord} (hreserved : w.isReserved = false)
    (hkind : w.indirection = .postindexed) : w.suppressesIndex = false := by
  have hbehind : 4 < w.selection := indirection_eq_postindexed_iff.mp hkind
  rw [isReserved, decide_eq_true hbehind, Bool.and_true, Bool.or_eq_false_iff] at hreserved
  exact hreserved.2

end IndexWord

namespace EffectiveAddress

theorem run_decodeDisplacement (size : BitVec 2) (c : Cursor) :
    (decodeDisplacement size).run c = (c.displacement size, Cursor.displacementWords size) := by
  unfold decodeDisplacement Cursor.displacement
  split
  case isTrue h =>
    rw [h]
    rfl
  case isFalse h2 =>
    split
    case isTrue h =>
      rw [h]
      rfl
    case isFalse h3 =>
      have hwords : ∀ size : BitVec 2, size ≠ 2 → size ≠ 3 → Cursor.displacementWords size = 0 := by
        decide
      rw [hwords size h2 h3]
      rfl

/-- The parts a full index word is decoded to. -/
theorem run_decodeFull {c : Cursor} (base : Base) (hnull : IndexWord.isNull ⟨c.word⟩ = false)
    (hreserved : IndexWord.isReserved ⟨c.word⟩ = false) :
    ((decodeFull base ⟨c.word⟩).run (c.advance 1)).1 = .full (c.fullAddress base) := by
  simp only [decodeFull, hnull, hreserved, Bool.false_eq_true, if_false, Reader.bind_eq,
    Reader.run_bind, run_decodeDisplacement, Cursor.advance_advance, Reader.pure_eq_done,
    Reader.run, IndexWord.indirection_eq, IndexWord.index_eq]
  rfl

/-- What is decoded from a full index word is sound. -/
theorem sound_fullAddress {c : Cursor} (base : Base)
    (hreserved : IndexWord.isReserved ⟨c.word⟩ = false) : (c.fullAddress base).Sound where
  outer_eq_zero hkind := by
    have hsize := IndexWord.outerSize_of_direct ((IndexWord.indirection_eq c.word).trans hkind)
    show Cursor.displacement _ (IndexWord.outerSize ⟨c.word⟩) = 0
    rw [hsize]
    rfl
  index_ne_none hkind := by
    have hindex := IndexWord.suppressesIndex_of_postindexed hreserved
      ((IndexWord.indirection_eq c.word).trans hkind)
    show (if IndexWord.suppressesIndex ⟨c.word⟩ then none else _) ≠ none
    rw [hindex]
    exact Option.some_ne_none _

/-- An address stands for no operand, or it is sound and stands for one at a known location. -/
def Located (ea : EffectiveAddress) (l : Option Location) : Prop :=
  ea.location? = none ∨ ea.location? = l ∧ ea.Sound

theorem decodeBrief_located (c : Cursor) (base : Base) :
    Located (.brief base (c.word.setWidth 8) (IndexWord.index ⟨c.word⟩))
      (some (.memory (c.briefAddress base))) := by
  rw [IndexWord.index_eq]
  exact .inr ⟨rfl, trivial⟩

theorem decodeFull_located (c : Cursor) (base : Base) :
    Located ((decodeFull base ⟨c.word⟩).run (c.advance 1)).1
      (some (.memory (c.fullAddress base))) := by
  cases hnull : IndexWord.isNull ⟨c.word⟩ with
  | true =>
    rw [decodeFull, if_pos hnull]
    exact .inl rfl
  | false =>
    cases hreserved : IndexWord.isReserved ⟨c.word⟩ with
    | true =>
      rw [decodeFull, if_neg (Bool.eq_false_iff.mp hnull), if_pos hreserved]
      exact .inl rfl
    | false =>
      rw [run_decodeFull base hnull hreserved]
      exact .inr ⟨rfl, sound_fullAddress base hreserved⟩

theorem decodeIndexed_located (c : Cursor) (base : Base) :
    Located ((decodeIndexed c.cpu.indexFormat base).run c).1
      (some (.memory (c.indexedAddress base))) := by
  unfold decodeIndexed Cursor.indexedAddress
  cases c.cpu.indexFormat with
  | brief =>
    rw [if_neg (by simp)]
    show Located (if (IndexWord.index ⟨c.word⟩).scale = 0 then _ else _) _
    split
    · exact decodeBrief_located c base
    · exact .inl rfl
  | full =>
    cases hfull : IndexWord.isFull ⟨c.word⟩ with
    | true =>
      rw [if_pos ⟨rfl, hfull⟩]
      show Located (Reader.run (if IndexWord.isFull ⟨c.word⟩ then _ else _) _).1 _
      rw [if_pos hfull]
      exact decodeFull_located c base
    | false =>
      rw [if_neg fun h => Bool.eq_false_iff.mp hfull h.2]
      show Located (Reader.run (if IndexWord.isFull ⟨c.word⟩ then _ else _) _).1 _
      rw [if_neg (Bool.eq_false_iff.mp hfull)]
      exact decodeBrief_located c base

/-- **What is decoded is where the bits say.** -/
theorem decode_located (c : Cursor) (field : BitVec 6) (size : Size) :
    Located (c.effectiveAddress field size) (Location.at? c field size) := by
  unfold Cursor.effectiveAddress decode Location.at? AddressMode.ofField?
  -- the mode and the register are all that is looked at of the field
  generalize (field.extractLsb' 3 3).toNat = mode
  generalize field.extractLsb' 0 3 = n
  dsimp only
  generalize n.toNat = k
  match mode, k with
  | 6, _ => exact decodeIndexed_located c (.address n)
  | 7, 3 => exact decodeIndexed_located c .pc
  | 7, 4 => cases size <;> exact .inr ⟨rfl, trivial⟩
  | 0, _ | 1, _ | 2, _ | 3, _ | 4, _ | 5, _ | 7, 0 | 7, 1 | 7, 2 => exact .inr ⟨rfl, trivial⟩
  | 7, _ + 5 | _ + 8, _ => exact .inl rfl

/-! ## What the text says -/

variable {c c' : Cursor} {field field' : BitVec 6} {size size' : Size}

/-- An address that stands for no operand has one of three texts. -/
theorem text_of_location?_eq_none {ea : EffectiveAddress} (h : ea.location? = none) :
    ea.text = "0" ∨ ea.text = "<invalid mode>" ∨ ∃ s, ea.text = "INVALID " ++ s := by
  cases ea with
  | null => exact .inl rfl
  | reserved => exact .inr (.inl rfl)
  | undefined field => exact .inr (.inr ⟨_, rfl⟩)
  | _ => cases h

/-- **Two addresses of one text are one operand.** Whatever the processors, the fields, the sizes
and the words are, the operands are the same register or immediate value, or the same place in
memory: the same base and index register or none, the same displacements, and memory indirection on
the same side of the index. The texts without an operand are left out. -/
theorem location_of_text
    (htext : (c.effectiveAddress field size).text = (c'.effectiveAddress field' size').text)
    (hnull : (c.effectiveAddress field size).text ≠ "0")
    (hreserved : (c.effectiveAddress field size).text ≠ "<invalid mode>")
    (hundefined : ∀ s, (c.effectiveAddress field size).text ≠ "INVALID " ++ s) :
    ∃ l, Location.at? c field size = some l ∧ Location.at? c' field' size' = some l := by
  have hsome {ea : EffectiveAddress} (hea : ea.text = (c.effectiveAddress field size).text) :
      ea.location? ≠ none := by
    intro hnone
    rcases hea ▸ text_of_location?_eq_none hnone with h | h | ⟨s, h⟩
    · exact hnull h
    · exact hreserved h
    · exact hundefined s h
  obtain ⟨hat, hsound⟩ := (decode_located c field size).resolve_left (hsome rfl)
  obtain ⟨hat', hsound'⟩ := (decode_located c' field' size').resolve_left (hsome htext.symm)
  obtain ⟨l, hl⟩ := Option.ne_none_iff_exists'.mp (hsome rfl)
  obtain ⟨l', hl'⟩ := Option.ne_none_iff_exists'.mp (hsome htext.symm)
  have hsame : l = l' := (spells_text hl hsound).eq (spells_text hl' hsound') htext
  exact ⟨l, hat.symm.trans hl, hat'.symm.trans (hsame ▸ hl')⟩

/-- A brief and a full index word of one text. -/
theorem location_of_text_indexed :
    let brief : Cursor := ⟨Image.memory ⟨#[0x02, 0x10], 0⟩, .m68020, 0⟩
    let full : Cursor := ⟨Image.memory ⟨#[0x03, 0x20, 0x00, 0x10], 0⟩, .m68030, 0⟩
    (brief.effectiveAddress 0x30 .word).text = "($10,A0,D0.w*2)" ∧
      (full.effectiveAddress 0x30 .word).text = "($10,A0,D0.w*2)" ∧
      ∃ l, Location.at? brief 0x30 .word = some l ∧ Location.at? full 0x30 .word = some l := by
  intro brief full
  have hbrief : (brief.effectiveAddress 0x30 .word).text = "($10,A0,D0.w*2)" := by
    decide +kernel
  have hfull : (full.effectiveAddress 0x30 .word).text = "($10,A0,D0.w*2)" := by
    decide +kernel
  refine ⟨hbrief, hfull, location_of_text (hbrief.trans hfull.symm) ?_ ?_ fun s => ?_⟩
  · rw [hbrief]
    decide
  · rw [hbrief]
    decide
  · rw [hbrief, ne_eq, ← String.toList_inj, String.toList_append]
    exact fun h => absurd (congrArg List.head? h) (by simp)

end EffectiveAddress

end Disasm68
