import Disasm68.Proofs.Memory.Image

/-!
# Slices of an image

A slice is what lies in a range of addresses (`Image.within`), as far as it is mapped: a range may
go on behind the image, or lie there as a whole. A range that begins before the image is refused
even if it reaches into it (`Image.slice_eq_within_iff`). Each byte that is returned is the one that
memory has at its address.
-/

namespace Disasm68.Image

variable {image : Image} {address : Long} {length : Nat}

/-- The bytes of an image with an address from the first one on and before the limit. -/
def within (image : Image) (first limit : Nat) : List Byte :=
  ((image.bytes.toList.zipIdx image.base.toNat).filter fun p => first ≤ p.2 ∧ p.2 < limit).map
    Prod.fst

/-- What lies in a range follows what precedes the range. The induction is on the bytes, and the
address of the first one grows. -/
theorem map_filter_zipIdx (bytes : List Byte) (base first limit : Nat) :
    ((bytes.zipIdx base).filter fun p => first ≤ p.2 ∧ p.2 < limit).map Prod.fst =
      (bytes.drop (first - base)).take (limit - max first base) := by
  induction bytes generalizing base with
  | nil => simp
  | cons b bytes ih =>
    rw [List.zipIdx_cons, List.filter_cons]
    rcases Nat.lt_or_ge base first with hbefore | hfirst
    · have hdrop : first - base = first - (base + 1) + 1 := by omega
      have hmax : max first (base + 1) = max first base := by omega
      rw [if_neg (by simp; omega), ih, hdrop, List.drop_succ_cons, hmax]
    have hdrop : first - base = 0 ∧ first - (base + 1) = 0 := by omega
    have hmax : max first base = base ∧ max first (base + 1) = base + 1 := by omega
    rcases Nat.lt_or_ge base limit with hinside | hbehind
    · have htake : limit - base = limit - (base + 1) + 1 := by omega
      rw [if_pos (by simp [hfirst, hinside]), List.map_cons, ih, hdrop.1, hdrop.2, hmax.1, hmax.2,
        htake, List.drop_zero, List.drop_zero, List.take_succ_cons]
    · have htake : limit - base = 0 ∧ limit - (base + 1) = 0 := by omega
      rw [if_neg (by simp [hbehind]), ih, hmax.1, hmax.2, htake.1, htake.2, List.take_zero,
        List.take_zero]

theorem within_eq (image : Image) (first limit : Nat) :
    image.within first limit = (image.bytes.toList.drop (first - image.base.toNat)).take
      (limit - max first image.base.toNat) :=
  map_filter_zipIdx _ _ _ _

/-- A slice that does not begin before the image is what lies in its range. -/
theorem slice_of_le (h : image.base ≤ address) :
    (image.slice address length).toList = image.within address.toNat (address.toNat + length) := by
  have hle : image.base.toNat ≤ address.toNat := BitVec.le_def.mp h
  rw [slice, if_pos h, within_eq, Array.toList_extract, List.extract_eq_take_drop,
    BitVec.toNat_sub_of_le h, Nat.add_sub_cancel_left, Nat.max_eq_left hle,
    Nat.add_sub_cancel_left]

/-- Nothing is returned for a range that begins before the image. -/
theorem slice_of_lt (h : address < image.base) : image.slice address length = #[] :=
  if_neg (BitVec.not_le.mpr h)

/-- A range that begins before the image may have something in it. -/
theorem within_ne_nil_iff (h : address < image.base) :
    image.within address.toNat (address.toNat + length) ≠ [] ↔
      image.base.toNat < address.toNat + length ∧ image.bytes ≠ #[] := by
  have hlt : address.toNat < image.base.toNat := BitVec.lt_def.mp h
  rw [within_eq, Nat.max_eq_right (Nat.le_of_lt hlt), Nat.sub_eq_zero_of_le (Nat.le_of_lt hlt),
    List.drop_zero, ne_eq, List.take_eq_nil_iff, Array.toList_eq_nil_iff, not_or, ne_eq]
  exact and_congr_left fun _ => by omega

/-- A byte of a slice is what memory has at its address. -/
theorem byteAt_slice (hfits : image.base.toNat + image.bytes.size ≤ 0x100000000) {i : Nat}
    (hi : i < (image.slice address length).size) :
    image.byteAt (address + BitVec.ofNat 32 i) = (image.slice address length)[i] := by
  have hle : image.base ≤ address := by
    refine BitVec.not_lt.mp fun hlt => ?_
    rw [slice_of_lt hlt] at hi
    cases hi
  have hslice : image.slice address length = image.bytes.extract (address - image.base).toNat
      ((address - image.base).toNat + length) := if_pos hle
  simp only [hslice, Array.size_extract] at hi ⊢
  -- the byte is so far behind the base as the range is, and then so far as it is in the range
  have hoffset : (address - image.base).toNat + i < image.bytes.size := by omega
  have haddress : address + BitVec.ofNat 32 i =
      image.addressOf ((address - image.base).toNat + i) := by
    rw [addressOf, BitVec.ofNat_add, BitVec.ofNat_toNat, BitVec.setWidth_eq, ← BitVec.add_assoc,
      BitVec.add_comm image.base, BitVec.sub_add_cancel]
  rw [haddress, byteAt_addressOf (by omega), byte, Array.getElem?_eq_getElem hoffset,
    Array.getElem_extract]
  rfl

/-- **A slice is clipped to what is mapped**, unless its range begins before the image and reaches
into it. Each byte of it is the high half of the word that memory has at the address of the byte. -/
theorem slice_eq_within_iff (address : Long) (length : Nat)
    (hfits : image.base.toNat + image.bytes.size ≤ 0x100000000) :
    ((image.slice address length).toList =
          image.within address.toNat (address.toNat + length) ↔
        ¬ (address < image.base ∧ image.base.toNat < address.toNat + length ∧
          image.bytes ≠ #[])) ∧
      (address < image.base → image.slice address length = #[]) ∧
      ∀ (i : Nat) (hi : i < (image.slice address length).size),
        (image.memory.word (address + BitVec.ofNat 32 i)).extractLsb' 8 8 =
          (image.slice address length)[i] := by
  refine ⟨?_, slice_of_lt, fun i hi => ?_⟩
  · by_cases hlt : address < image.base
    · rw [slice_of_lt hlt, ← within_ne_nil_iff hlt, eq_comm]
      simp [hlt]
    · exact iff_of_true (slice_of_le (BitVec.not_lt.mp hlt)) fun h => hlt h.1
  · rw [← byteAt_slice hfits hi]
    exact BitVec.extractLsb'_append_eq_left

/-- A range that goes on behind an image at the top of memory. -/
theorem slice_eq_within_iff_top :
    let image : Image := ⟨#[0x60, 0xfe, 0x4e, 0x75], 0xfffffffc⟩
    let address : Long := 0xfffffffe
    image.base.toNat + image.bytes.size ≤ 0x100000000 ∧
      (image.slice address 8).toList = image.within address.toNat (address.toNat + 8) ∧
      (image.memory.word (address + BitVec.ofNat 32 1)).extractLsb' 8 8 = 0x75 := by
  intro image address
  have hfits : image.base.toNat + image.bytes.size ≤ 0x100000000 := by decide
  have hbehind : ¬ address < image.base := by decide
  have hslice : image.slice address 8 = #[0x4e, 0x75] := by decide +kernel
  obtain ⟨hwithin, -, hword⟩ := slice_eq_within_iff address 8 hfits
  refine ⟨hfits, hwithin.mpr fun h => hbehind h.1, ?_⟩
  exact (hword 1 (by simp [hslice])).trans (by simp [hslice])

/-- A range that begins before the image and reaches into it. -/
theorem slice_before_ne :
    let image : Image := ⟨#[0x60, 0xfe, 0x4e, 0x75], 0x1000⟩
    image.base.toNat + image.bytes.size ≤ 0x100000000 ∧
      image.within 0xffe (0xffe + 4) = [0x60, 0xfe] ∧
      (image.slice 0xffe 4).toList ≠ image.within 0xffe (0xffe + 4) := by
  decide +kernel

end Disasm68.Image
