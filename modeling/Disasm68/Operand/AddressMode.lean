import Disasm68.Width

/-!
# Addressing modes

An effective address is selected by a six-bit field, three bits of mode over three bits of register.
Mode 7 uses the register bits to tell five further modes apart and leaves three encodings undefined.

An instruction admits a set of modes, written as a word with one bit for each. The empty set stands
for an encoding without an effective address and refuses no field.
-/

namespace Disasm68

/-- The twelve addressing modes. -/
inductive AddressMode where
  | dataRegister
  | addressRegister
  | indirect
  | postincrement
  | predecrement
  | displacement
  | index
  | absoluteShort
  | absoluteLong
  | immediate
  | pcDisplacement
  | pcIndex
  deriving DecidableEq, Repr

namespace AddressMode

/-- The mode a field selects; the last three encodings of mode 7 select none. -/
def ofField? (field : BitVec 6) : Option AddressMode :=
  match (field.extractLsb' 3 3).toNat, (field.extractLsb' 0 3).toNat with
  | 0, _ => some .dataRegister
  | 1, _ => some .addressRegister
  | 2, _ => some .indirect
  | 3, _ => some .postincrement
  | 4, _ => some .predecrement
  | 5, _ => some .displacement
  | 6, _ => some .index
  | 7, 0 => some .absoluteShort
  | 7, 1 => some .absoluteLong
  | 7, 2 => some .pcDisplacement
  | 7, 3 => some .pcIndex
  | 7, 4 => some .immediate
  | _, _ => none

/-- The bit that stands for a mode in a set of modes. -/
def bit : AddressMode → Word
  | .dataRegister => 0x800
  | .addressRegister => 0x400
  | .indirect => 0x200
  | .postincrement => 0x100
  | .predecrement => 0x080
  | .displacement => 0x040
  | .index => 0x020
  | .absoluteShort => 0x010
  | .absoluteLong => 0x008
  | .immediate => 0x004
  | .pcDisplacement => 0x002
  | .pcIndex => 0x001

/-- Whether a set of modes admits the mode of a field. -/
def admits (modes : Word) (field : BitVec 6) : Bool :=
  modes == 0 || match ofField? field with
    | some mode => modes &&& mode.bit != 0
    | none => false

/-- The modes that name a place an instruction can store to, address registers apart. -/
def dataAlterable : Word := 0xbf8

end AddressMode

end Disasm68
