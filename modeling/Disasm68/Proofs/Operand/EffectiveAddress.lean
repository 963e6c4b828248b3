import Disasm68.Operand.EffectiveAddress
import Disasm68.Proofs.Numeral.Hex
import Disasm68.Proofs.Reader.Shows
import Disasm68.Proofs.Text.Intercalate

/-!
# Effective addresses: how long they are and what they show

An effective address takes five words at most, a full index word with two long displacements
(`decode_words_le`). Its text shows every long it is built from: an absolute address, a long
immediate and both displacements of the full format (`decode_shows`). A displacement of zero is not
printed, so for the displacements this says that the texts differ where one of them leaves a part
out as well as where both print it.
-/

namespace Disasm68

open Reader

namespace Datum

/-- A long that is read shows as an unsigned numeral. -/
theorem next_shows_unsigned (size : Size) : (Reader.next size).Shows unsigned := by
  cases size with
  | byte => exact fun _ => trivial
  | word => exact fun _ => trivial
  | long =>
    refine ⟨fun _ => trivial, fun l l' => .done fun hbit h => hbit ?_⟩
    rw [Hex.unsigned_inj.mp h]

/-- A long that is read shows as a signed numeral. -/
theorem next_shows_signed (size : Size) : (Reader.next size).Shows signed := by
  cases size with
  | byte => exact fun _ => trivial
  | word => exact fun _ => trivial
  | long =>
    refine ⟨fun _ => trivial, fun l l' => .done fun hbit h => hbit ?_⟩
    rw [Hex.signed_inj.mp h]

end Datum

namespace FullIndex

/-- What the text lists of a displacement, given whether nothing else would be listed. -/
theorem intercalate_displacement_ne {d d' : Long} (h : d ≠ d') (alone : Prop) [Decidable alone]
    (rest : List String) :
    ",".intercalate ((if d ≠ 0 ∨ alone then [Hex.signed d] else []) ++ rest) ≠
      ",".intercalate ((if d' ≠ 0 ∨ alone then [Hex.signed d'] else []) ++ rest) := by
  by_cases hd : d ≠ 0 ∨ alone <;> by_cases hd' : d' ≠ 0 ∨ alone
  · rw [if_pos hd, if_pos hd']
    exact fun ht => h (Hex.signed_inj.mp ((Text.intercalate_replace_inj "," [] rest).mp ht))
  · rw [if_pos hd, if_neg hd']
    exact Text.intercalate_insert_ne "," [] rest (Hex.signed_ne_empty d)
  · rw [if_neg hd, if_pos hd']
    exact (Text.intercalate_insert_ne "," [] rest (Hex.signed_ne_empty d')).symm
  · simp only [ne_eq, not_or, Decidable.not_not] at hd hd'
    exact absurd (hd.1.trans hd'.1.symm) h

/-- Another displacement makes another text. -/
theorem text_displacement_ne (p : FullIndex) {d d' : Long} (h : d ≠ d') :
    FullIndex.text { p with displacement := d } ≠ FullIndex.text { p with displacement := d' } := by
  intro ht
  simp only [text] at ht
  cases hi : p.indirection <;> rw [hi] at ht <;> dsimp only at ht
  case direct =>
    rw [String.append_left_inj, String.append_right_inj, List.append_assoc, List.append_assoc] at ht
    exact intercalate_displacement_ne h _ _ ht
  case preindexed =>
    rw [String.append_left_inj, String.append_right_inj, List.append_assoc, List.append_assoc] at ht
    have hinner := (Text.intercalate_replace_inj "," [] _).mp ht
    rw [String.append_left_inj, String.append_right_inj] at hinner
    exact intercalate_displacement_ne h _ _ hinner
  case postindexed =>
    rw [String.append_left_inj, String.append_right_inj] at ht
    have hinner := (Text.intercalate_replace_inj "," [] _).mp ht
    rw [String.append_left_inj, String.append_right_inj] at hinner
    exact intercalate_displacement_ne h _ _ hinner

/-- What the text lists last is the outer displacement, unless it is zero. -/
theorem intercalate_outer_ne {o o' : Long} (h : o ≠ o') (init : List String) :
    ",".intercalate (init ++ if o = 0 then [] else [Hex.signed o]) ≠
      ",".intercalate (init ++ if o' = 0 then [] else [Hex.signed o']) := by
  by_cases ho : o = 0 <;> by_cases ho' : o' = 0
  · exact absurd (ho.trans ho'.symm) h
  · rw [if_pos ho, if_neg ho']
    exact (Text.intercalate_insert_ne "," init [] (Hex.signed_ne_empty o')).symm
  · rw [if_neg ho, if_pos ho']
    exact Text.intercalate_insert_ne "," init [] (Hex.signed_ne_empty o)
  · rw [if_neg ho, if_neg ho']
    exact fun ht => h (Hex.signed_inj.mp ((Text.intercalate_replace_inj "," init []).mp ht))

/-- Where memory is indirected through, another outer displacement makes another text. -/
theorem text_outer_ne (p : FullIndex) (hp : p.indirection ≠ .direct) {o o' : Long} (h : o ≠ o') :
    FullIndex.text { p with outer := o } ≠ FullIndex.text { p with outer := o' } := by
  intro ht
  simp only [text] at ht
  cases hi : p.indirection <;> rw [hi] at ht <;> dsimp only at ht
  case direct => exact hp hi
  case preindexed =>
    rw [String.append_left_inj, String.append_right_inj] at ht
    exact intercalate_outer_ne h [_] ht
  case postindexed =>
    rw [String.append_left_inj, String.append_right_inj, ← List.cons_append, ← List.cons_append]
      at ht
    exact intercalate_outer_ne h _ ht

end FullIndex

/-- Without indirection there is no outer displacement. -/
theorem IndexWord.outerSize_of_direct {w : IndexWord} (h : w.indirection = .direct) :
    w.outerSize = 0 := by
  have hsel : w.selection = 0 ∨ w.selection = 4 := by
    unfold indirection at h
    split at h
    · assumption
    · split at h <;> cases h
  have hsize : w.outerSize = w.selection.extractLsb' 0 2 := by
    ext i hi
    simp [outerSize, selection]
  rw [hsize]
  rcases hsel with h0 | h4
  · rw [h0]; decide
  · rw [h4]; decide

namespace EffectiveAddress

/-! ## How many words an address takes -/

theorem decodeDisplacement_words_le (size : BitVec 2) :
    (decodeDisplacement size).Ensures fun _ n => n ≤ 2 := by
  unfold decodeDisplacement
  split
  · simp
  · split <;> simp

theorem decodeFull_words_le (base : Base) (w : IndexWord) :
    (decodeFull base w).Ensures fun _ n => n ≤ 4 := by
  unfold decodeFull
  split
  · simp
  · split
    · simp
    · simp only [bind_eq, pure_eq_done, ensures_bind, ensures_done]
      refine (decodeDisplacement_words_le _).mono fun _ m hm => ?_
      exact (decodeDisplacement_words_le _).mono fun _ n hn => by omega

theorem decodeIndexed_words_le (format : IndexFormat) (base : Base) :
    (decodeIndexed format base).Ensures fun _ n => n ≤ 5 := by
  simp only [decodeIndexed, bind_eq, ensures_bind, ensures_nextWord]
  intro w
  cases format with
  | brief => simp
  | full =>
    dsimp only
    split
    · exact (decodeFull_words_le _ _).mono fun _ n hn => by omega
    · simp

/-- **An address takes five words at most.** -/
theorem decode_words_le (format : IndexFormat) (field : BitVec 6) (size : Size) :
    (decode format field size).Ensures fun _ n => n ≤ 5 := by
  unfold decode
  cases AddressMode.ofField? field with
  | none => simp
  | some mode =>
    cases mode
    case immediate =>
      simp only [bind_eq, pure_eq_done, ensures_bind, ensures_done]
      exact (next_words_le size).mono fun _ n hn => by omega
    all_goals simp [decodeIndexed_words_le]

/-! ## What an address shows -/

theorem decodeDisplacement_shows (size : BitVec 2) : (decodeDisplacement size).Shows id := by
  unfold decodeDisplacement
  split
  · exact fun _ => trivial
  · split
    · exact ⟨fun _ => trivial, fun l l' => .done fun hbit h => hbit (by rw [show l = l' from h])⟩
    · exact trivial

theorem decodeFull_shows (base : Base) (w : IndexWord) : (decodeFull base w).Shows text := by
  unfold decodeFull
  split
  · exact trivial
  · split
    · exact trivial
    · refine (decodeDisplacement_shows _).bind (fun d => ?_) fun d d' => ?_
      · -- without indirection the text ignores the outer displacement, but then none is read
        by_cases hdirect : w.indirection = .direct
        · rw [IndexWord.outerSize_of_direct hdirect]
          exact trivial
        · exact (decodeDisplacement_shows _).bind (fun _ => trivial) fun o o' =>
            .done fun h => FullIndex.text_outer_ne
              { base := if w.suppressesBase then none else some base
                displacement := d
                index := if w.suppressesIndex then none else some w.index
                indirection := w.indirection
                outer := o } hdirect h
      · exact .bind_left _ fun o => .done fun h => FullIndex.text_displacement_ne
          { base := if w.suppressesBase then none else some base
            displacement := d
            index := if w.suppressesIndex then none else some w.index
            indirection := w.indirection
            outer := o } h

theorem decodeIndexed_shows (format : IndexFormat) (base : Base) :
    (decodeIndexed format base).Shows text := by
  intro w
  cases format with
  | brief => exact trivial
  | full =>
    show Reader.Shows text (if (IndexWord.mk w).isFull then decodeFull base ⟨w⟩ else _)
    split
    · exact decodeFull_shows base ⟨w⟩
    · exact trivial

/-- **An address shows every long it is built from.** -/
theorem decode_shows (format : IndexFormat) (field : BitVec 6) (size : Size) :
    (decode format field size).Shows text := by
  unfold decode
  cases AddressMode.ofField? field with
  | none => exact trivial
  | some mode =>
    cases mode
    case index | pcIndex => exact decodeIndexed_shows format _
    case absoluteLong =>
      refine ⟨fun _ => trivial, fun l l' => .done fun hbit h => hbit ?_⟩
      simp only [text, String.append_left_inj, String.append_right_inj, Hex.signed_inj] at h
      rw [h]
    case immediate =>
      refine (Datum.next_shows_unsigned size).bind (fun _ => trivial) fun v v' => .done fun h => ?_
      simpa only [text, ne_eq, String.append_right_inj] using h
    case displacement | absoluteShort | pcDisplacement => exact fun _ => trivial
    all_goals exact trivial

end EffectiveAddress

end Disasm68
