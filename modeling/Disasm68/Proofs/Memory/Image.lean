import Disasm68.Listing.Sweep
import Disasm68.Proofs.Memory.Bus

/-!
# Images on the address bus

A processor sees the bytes of an image one after another, as far as the bus goes
(`Image.cursor_word`). What would stand behind the last address is fetched from the first ones, which
lie below the base of the image and are not mapped, so zeros are seen there
(`Image.cursor_word_of_wrapped`).
-/

namespace Disasm68

namespace Image

/-- The byte at an offset; zero behind the last one. -/
def byte (image : Image) (offset : Nat) : Byte :=
  (image.bytes[offset]?).getD 0

/-- The two bytes at an offset. -/
def word (image : Image) (offset : Nat) : Word :=
  image.byte offset ++ image.byte (offset + 1)

/-- The place of a byte as a processor sees it. -/
def cursor (image : Image) (cpu : Cpu) (offset : Nat) : Cursor where
  memory := image.memory
  cpu
  address := image.addressOf offset

variable {image : Image} {cpu : Cpu} {offset : Nat}

theorem addressOf_add (image : Image) (offset n : Nat) :
    image.addressOf offset + BitVec.ofNat 32 n = image.addressOf (offset + n) := by
  rw [addressOf, addressOf, BitVec.add_assoc, ← BitVec.ofNat_add]

theorem addressOf_toNat (h : image.base.toNat + offset < 0x100000000) :
    (image.addressOf offset).toNat = image.base.toNat + offset := by
  rw [addressOf, BitVec.toNat_add, BitVec.toNat_ofNat, Nat.add_mod_mod, Nat.mod_eq_of_lt h]

/-- Bytes are found where they are mapped. -/
theorem byteAt_addressOf (h : image.base.toNat + offset < 0x100000000) :
    image.byteAt (image.addressOf offset) = image.byte offset := by
  have hle : image.base ≤ image.addressOf offset := by
    rw [BitVec.le_def, addressOf_toNat h]
    exact Nat.le_add_right _ _
  have hoffset : (image.addressOf offset - image.base).toNat = offset := by
    rw [BitVec.toNat_sub_of_le hle, addressOf_toNat h, Nat.add_sub_cancel_left]
  rw [byteAt, if_pos hle, hoffset]
  rfl

/-- Nothing is mapped below the base. -/
theorem byteAt_of_lt {address : Long} (h : address < image.base) : image.byteAt address = 0 :=
  if_neg (BitVec.not_le.mpr h)

@[simp] theorem cursor_advance (image : Image) (cpu : Cpu) (offset n : Nat) :
    (image.cursor cpu offset).advance n = image.cursor cpu (offset + 2 * n) := by
  rw [Cursor.advance, cursor, cursor, addressOf_add]

theorem cursor_busAddress (h : image.base.toNat + offset < cpu.busSize) :
    (image.cursor cpu offset).busAddress = image.addressOf offset := by
  have hsize := cpu.busSize_le
  refine BitVec.eq_of_toNat_eq ?_
  rw [Cursor.busAddress_toNat]
  show (image.addressOf offset).toNat % cpu.busSize = _
  rw [addressOf_toNat (by omega), Nat.mod_eq_of_lt h]

/-- **As far as the bus goes a processor sees the bytes of the image.** -/
theorem cursor_word (h : image.base.toNat + offset + 2 ≤ cpu.busSize) :
    (image.cursor cpu offset).word = image.word offset := by
  have hsize := cpu.busSize_le
  have hnext : image.addressOf offset + 1 = image.addressOf (offset + 1) :=
    image.addressOf_add offset 1
  rw [Cursor.word, cursor_busAddress (by omega)]
  show (image.byteAt _ ++ image.byteAt _ : Word) = _
  rw [hnext, byteAt_addressOf (by omega), byteAt_addressOf (by omega)]
  rfl

/-- **Behind the top of the bus a processor sees zeros.** -/
theorem cursor_word_of_wrapped (hbase : image.base.toNat < cpu.busSize)
    (hwrap : cpu.busSize ≤ image.base.toNat + offset) (hoffset : offset + 2 ≤ cpu.busSize) :
    (image.cursor cpu offset).word = 0 := by
  have hbus : (image.cursor cpu offset).busAddress.toNat =
      image.base.toNat + offset - cpu.busSize := by
    rw [Cursor.busAddress_toNat]
    show (image.addressOf offset).toNat % cpu.busSize = _
    rw [addressOf, BitVec.toNat_add, BitVec.toNat_ofNat]
    rcases cpu.busSize_cases with hs | hs | hs <;> rw [hs] at hbase hwrap hoffset ⊢ <;> omega
  have hsize := cpu.busSize_le
  have hfirst : (image.cursor cpu offset).busAddress < image.base := by
    rw [BitVec.lt_def, hbus]
    omega
  have hsecond : (image.cursor cpu offset).busAddress + 1 < image.base := by
    rw [BitVec.lt_def, BitVec.toNat_add, hbus]
    show (_ + 1) % 0x100000000 < _
    rw [Nat.mod_eq_of_lt (by omega)]
    omega
  show (image.byteAt _ ++ image.byteAt _ : Word) = 0
  rw [byteAt_of_lt hfirst, byteAt_of_lt hsecond]
  rfl

/-- The two bytes at an offset of the buffer. -/
theorem extract_two (h : offset + 2 ≤ image.bytes.size) :
    (image.bytes.extract offset (offset + 2)).toList =
      [image.byte offset, image.byte (offset + 1)] := by
  apply List.ext_getElem
  · simp
    omega
  · intro i hi hi'
    simp only [List.length_cons, List.length_nil] at hi'
    have h0 : offset < image.bytes.size := by omega
    have h1 : offset + 1 < image.bytes.size := by omega
    rcases (by omega : i = 0 ∨ i = 1) with rfl | rfl <;> simp [byte, h0, h1]

end Image

end Disasm68
