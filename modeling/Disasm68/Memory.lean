import Disasm68.Width

/-!
# Memory as a disassembler sees it

Memory answers big-endian words, at odd addresses too. A long is two words, and the address of the
second one is the address of the first plus two, wrapping at 32 bits.

An `Image` is a run of bytes mapped at a base address. Bytes outside the image read as zero, and an
image that runs past the last address does not continue at address zero.
-/

namespace Disasm68

/-- A source of words. -/
structure Memory where
  /-- The word at an address. -/
  word : Long → Word

namespace Memory

/-- The long at an address. -/
def long (m : Memory) (address : Long) : Long :=
  m.word address ++ m.word (address + 2)

end Memory

/-- Bytes mapped at a base address. -/
structure Image where
  bytes : Array Byte
  base : Long := 0
  deriving DecidableEq

namespace Image

/-- The byte at an address; zero outside the image. -/
def byteAt (image : Image) (address : Long) : Byte :=
  if image.base ≤ address then
    (image.bytes[(address - image.base).toNat]?).getD 0
  else
    0

/-- The memory that holds the image and zeros elsewhere. -/
def memory (image : Image) : Memory where
  word address := image.byteAt address ++ image.byteAt (address + 1)

/-- The address after the last mapped byte, wrapping at 32 bits. -/
def limit (image : Image) : Long :=
  image.base + BitVec.ofNat 32 image.bytes.size

/-- The mapped bytes among the `length` bytes from `address` on. Nothing is returned for a range
that starts before the image. -/
def slice (image : Image) (address : Long) (length : Nat) : Array Byte :=
  if image.base ≤ address then
    let start := (address - image.base).toNat
    image.bytes.extract start (start + length)
  else
    #[]

end Image

end Disasm68
