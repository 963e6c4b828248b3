import Disasm68.Memory.Reader
import Disasm68.Operand.AddressMode
import Disasm68.Operand.Register

/-!
# Effective addresses

An `EffectiveAddress` says where an operand is: in a register, in memory or in the instruction
itself. `decode` builds one from its six-bit field and the words that follow, `text` prints it.

Indexed modes are described by an index word. In the brief format it holds a byte displacement and
an index register. The full format adds a base displacement, an outer displacement and memory
indirection, and lets base and index register be left out; a part that is zero or left out is not
printed. Some full index words are reserved, and some that suppress base and index are read as the
address zero without looking further.
-/

namespace Disasm68

/-- What a displacement is added to. -/
inductive Base where
  | address (number : BitVec 3)
  | pc
  deriving DecidableEq, Repr

/-- The name of a base. -/
def Base.text : Base → String
  | .address n => (Register.mk .address n).text
  | .pc => "PC"

/-- An index register with its width and scale. -/
structure Index where
  register : Register
  isLong : Bool
  /-- The register is multiplied by two to this power. -/
  scale : BitVec 2
  deriving DecidableEq, Repr

/-- An index register as `D0.w` or, when it is scaled, `A1.l*4`. -/
def Index.text (i : Index) : String :=
  i.register.text ++ (if i.isLong then ".l" else ".w") ++
    if i.scale = 0 then "" else "*" ++ toString (1 <<< i.scale.toNat)

/-- Whether memory is read for an intermediate address, and on which side of that the index is
added. -/
inductive Indirection where
  | direct
  | preindexed
  | postindexed
  deriving DecidableEq, Repr

/-- The parts of an address in the full index format. An absent displacement is zero. -/
structure FullIndex where
  base : Option Base
  displacement : Long
  index : Option Index
  indirection : Indirection
  outer : Long
  deriving DecidableEq, Repr

/-- Where an operand is. -/
inductive EffectiveAddress where
  | register (r : Register)
  | indirect (n : BitVec 3)
  | postincrement (n : BitVec 3)
  | predecrement (n : BitVec 3)
  | displaced (base : Base) (displacement : Word)
  | short (address : Word)
  | absolute (address : Long)
  | immediate (value : Datum)
  | brief (base : Base) (displacement : Byte) (index : Index)
  | full (parts : FullIndex)
  /-- A full index word that stands for the address zero. -/
  | null
  /-- An index word the processor reserves. -/
  | reserved
  /-- A field that selects no mode. -/
  | undefined (field : BitVec 6)
  deriving DecidableEq, Repr

/-- The word that describes an indexed address. -/
structure IndexWord where
  bits : Word

namespace IndexWord

/-- The index register with its width and scale. -/
def index (w : IndexWord) : Index where
  register := .ofBits (w.bits.extractLsb' 12 4)
  isLong := w.bits.getLsbD 11
  scale := w.bits.extractLsb' 9 2

/-- Whether the word is in the full format, where that exists. -/
def isFull (w : IndexWord) : Bool := w.bits.getLsbD 8

/-- Whether the base register is left out. -/
def suppressesBase (w : IndexWord) : Bool := w.bits.getLsbD 7

/-- Whether the index register is left out. -/
def suppressesIndex (w : IndexWord) : Bool := w.bits.getLsbD 6

/-- How the base displacement is given. -/
def displacementSize (w : IndexWord) : BitVec 2 := w.bits.extractLsb' 4 2

/-- How the outer displacement is given. -/
def outerSize (w : IndexWord) : BitVec 2 := w.bits.extractLsb' 0 2

/-- The three bits that select memory indirection. -/
def selection (w : IndexWord) : BitVec 3 := w.bits.extractLsb' 0 3

/-- Whether memory is indirected through, and where the index comes in. -/
def indirection (w : IndexWord) : Indirection :=
  if w.selection = 0 ∨ w.selection = 4 then .direct
  else if w.selection < 4 then .preindexed
  else .postindexed

/-- Whether the word is read as the address zero: base and index are suppressed, there is no base
displacement of a word or more, and the outer displacement is not the word or long of a
preindexed address. -/
def isNull (w : IndexWord) : Bool :=
  w.suppressesBase && w.suppressesIndex && !w.displacementSize.getLsbD 1 &&
    (w.selection.getLsbD 2 || !w.selection.getLsbD 1)

/-- Whether the word is a reserved one: no size for the base displacement, or a selection that has
no meaning with or without an index. -/
def isReserved (w : IndexWord) : Bool :=
  w.displacementSize == 0 || w.selection == 4 || (w.suppressesIndex && 4 < w.selection)

end IndexWord

namespace EffectiveAddress

/-- A displacement of the full format: absent, a word or a long. -/
def decodeDisplacement (size : BitVec 2) : Reader Long :=
  if size = 2 then do return (← Reader.nextWord).signExtend 32
  else if size = 3 then Reader.nextLong
  else return 0

/-- An address in the full format. Words that are null or reserved have no further words. -/
def decodeFull (base : Base) (w : IndexWord) : Reader EffectiveAddress :=
  if w.isNull then
    return .null
  else if w.isReserved then
    return .reserved
  else do
    let displacement ← decodeDisplacement w.displacementSize
    let outer ← decodeDisplacement w.outerSize
    return .full
      { base := if w.suppressesBase then none else some base
        displacement
        index := if w.suppressesIndex then none else some w.index
        indirection := w.indirection
        outer }

/-- An indexed address relative to a base. Where only the brief format exists, the bit that selects
the full one is ignored and a scale is refused. -/
def decodeIndexed (format : IndexFormat) (base : Base) : Reader EffectiveAddress := do
  let w := IndexWord.mk (← Reader.nextWord)
  match format with
  | .brief =>
    return if w.index.scale = 0 then .brief base (w.bits.setWidth 8) w.index else .reserved
  | .full =>
    if w.isFull then decodeFull base w
    else return .brief base (w.bits.setWidth 8) w.index

/-- The address a field selects. The size matters for an immediate only. -/
def decode (format : IndexFormat) (field : BitVec 6) (size : Size) : Reader EffectiveAddress :=
  let n := field.extractLsb' 0 3
  match AddressMode.ofField? field with
  | some .dataRegister => return .register ⟨.data, n⟩
  | some .addressRegister => return .register ⟨.address, n⟩
  | some .indirect => return .indirect n
  | some .postincrement => return .postincrement n
  | some .predecrement => return .predecrement n
  | some .displacement => do return .displaced (.address n) (← Reader.nextWord)
  | some .index => decodeIndexed format (.address n)
  | some .absoluteShort => do return .short (← Reader.nextWord)
  | some .absoluteLong => do return .absolute (← Reader.nextLong)
  | some .pcDisplacement => do return .displaced .pc (← Reader.nextWord)
  | some .pcIndex => decodeIndexed format .pc
  | some .immediate => do return .immediate (← Reader.next size)
  | none => return .undefined field

end EffectiveAddress

/-- The parts that are present, the intermediate address in brackets. A displacement of zero is
printed only where neither base nor index follows. -/
def FullIndex.text (parts : FullIndex) : String :=
  let base := (parts.base.map Base.text).toList
  let index := (parts.index.map Index.text).toList
  let displacement :=
    if parts.displacement ≠ 0 ∨ (parts.base = none ∧ parts.index = none) then
      [Hex.signed parts.displacement]
    else []
  let outer := if parts.outer = 0 then [] else [Hex.signed parts.outer]
  let list := ",".intercalate
  match parts.indirection with
  | .direct => "(" ++ list (displacement ++ base ++ index) ++ ")"
  | .preindexed => "(" ++ list (("[" ++ list (displacement ++ base ++ index) ++ "]") :: outer) ++ ")"
  | .postindexed =>
    "(" ++ list (("[" ++ list (displacement ++ base) ++ "]") :: (index ++ outer)) ++ ")"

namespace EffectiveAddress

/-- The operand in assembler notation. -/
def text : EffectiveAddress → String
  | .register r => r.text
  | .indirect n => "(" ++ (Base.address n).text ++ ")"
  | .postincrement n => "(" ++ (Base.address n).text ++ ")+"
  | .predecrement n => "-(" ++ (Base.address n).text ++ ")"
  | .displaced base d => "(" ++ Hex.signed d ++ "," ++ base.text ++ ")"
  | .short address => "(" ++ Hex.signed address ++ ").w"
  | .absolute address => "(" ++ Hex.signed address ++ ").l"
  | .immediate value => "#" ++ value.unsigned
  | .brief base d index => "(" ++ Hex.signed d ++ "," ++ base.text ++ "," ++ index.text ++ ")"
  | .full parts => parts.text
  | .null => "0"
  | .reserved => "<invalid mode>"
  | .undefined field => "INVALID " ++ Hex.lower field.toNat

end EffectiveAddress

end Disasm68
