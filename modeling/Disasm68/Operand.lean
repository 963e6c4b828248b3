import Disasm68.Operand.EffectiveAddress

/-!
# Operands

Besides effective addresses an instruction may name immediate values, counts, special registers,
pairs of registers, register lists, bit fields and branch targets. Every kind of operand is one
constructor of `Operand`, and `Operand.text` is the only place that prints it.

A branch target is kept as its distance from the word after the opcode, so that an operand does not
depend on where the instruction stands; `text` takes the address of that word.
-/

namespace Disasm68

/-- A register with a name of its own. -/
inductive SpecialRegister where
  | ccr
  | sr
  | usp
  deriving DecidableEq, Repr

/-- The name of a special register. -/
def SpecialRegister.text : SpecialRegister → String
  | .ccr => "CCR"
  | .sr => "SR"
  | .usp => "USP"

/-- The instructions and registers of later processors are marked with the processors that have
them. -/
inductive Tag where
  | since010
  | since020
  | only020
  | only020and030
  | coprocessor
  | only040
  | since040
  | unknown
  deriving DecidableEq, Repr

/-- A tag in parentheses. -/
def Tag.text : Tag → String
  | .since010 => "(1+)"
  | .since020 => "(2+)"
  | .only020 => "(2)"
  | .only020and030 => "(2,3)"
  | .coprocessor => "(2-3)"
  | .only040 => "(4)"
  | .since040 => "(4+)"
  | .unknown => "(?)"

namespace ControlRegister

/-- The control registers with their codes, names and tags. -/
def known : List (BitVec 12 × String × Tag) :=
  [(0x000, "SFC", .since010),
   (0x001, "DFC", .since010),
   (0x800, "USP", .since010),
   (0x801, "VBR", .since010),
   (0x002, "CACR", .since020),
   (0x802, "CAAR", .only020and030),
   (0x803, "MSP", .since020),
   (0x804, "ISP", .since020),
   (0x003, "TC", .since040),
   (0x004, "ITT0", .since040),
   (0x005, "ITT1", .since040),
   (0x006, "DTT0", .since040),
   (0x007, "DTT1", .since040),
   (0x805, "MMUSR", .since040),
   (0x806, "URP", .since040),
   (0x807, "SRP", .since040)]

/-- The name of a control register; one that is not known is shown by its code. -/
def text (code : BitVec 12) : String :=
  match known.lookup code with
  | some (name, _) => name
  | none => Hex.unsigned code

/-- The tag of a control register. -/
def tag (code : BitVec 12) : Tag :=
  match known.lookup code with
  | some (_, tag) => tag
  | none => .unknown

end ControlRegister

/-- Offset or width of a bit field. -/
inductive FieldBound where
  | constant (n : Nat)
  | register (n : BitVec 3)
  deriving DecidableEq, Repr

/-- A bound in decimal, or the data register that holds it. -/
def FieldBound.text : FieldBound → String
  | .constant n => toString n
  | .register n => (Register.mk .data n).text

/-- A field of bits within an operand. -/
structure BitField where
  offset : FieldBound
  width : FieldBound
  deriving DecidableEq, Repr

namespace BitField

/-- The field a word describes. A constant width of zero means 32. -/
def ofWord (w : Word) : BitField where
  offset :=
    if w.getLsbD 11 then .register (w.extractLsb' 6 3)
    else .constant (w.extractLsb' 6 5).toNat
  width :=
    if w.getLsbD 5 then .register (w.extractLsb' 0 3)
    else .constant (if w.extractLsb' 0 5 = 0 then 32 else (w.extractLsb' 0 5).toNat)

/-- Offset and width in braces. -/
def text (f : BitField) : String :=
  "\x7b" ++ f.offset.text ++ ":" ++ f.width.text ++ "\x7d"

end BitField

/-- An operand of an instruction. -/
inductive Operand where
  | address (ea : EffectiveAddress)
  /-- An immediate shown as an unsigned number. -/
  | immediate (value : Datum)
  /-- An immediate shown as a signed number. -/
  | signed (value : Datum)
  /-- A small number in decimal. -/
  | count (n : Nat)
  | special (r : SpecialRegister)
  | control (code : BitVec 12)
  /-- Bytes of a peripheral at a displacement from an address register. -/
  | peripheral (displacement : Word) (n : BitVec 3)
  | registers (mask : Word)
  /-- A place to continue at, as its distance from the word after the opcode. -/
  | target (distance : Long)
  | bits (ea : EffectiveAddress) (field : BitField)
  /-- A value of two longs in a pair of data registers. -/
  | wide (high low : BitVec 3)
  /-- The registers of a remainder and a quotient. -/
  | division (remainder quotient : BitVec 3)
  /-- The registers of two comparisons and the two updates that depend on them. -/
  | comparisons (first second : BitVec 3) (update1 update2 : BitVec 3)
  /-- Two operands in memory that are compared together. -/
  | places (first second : Register)
  /-- A counter register and the distance a coprocessor loop jumps. -/
  | counter (n : BitVec 3) (distance : Word)
  /-- A word shown as such. -/
  | raw (w : Word)
  /-- A selection of caches. -/
  | caches (selection : BitVec 2)
  | illegalScope
  deriving DecidableEq, Repr

namespace Operand

/-- A data register. -/
def data (n : BitVec 3) : Operand := .address (.register ⟨.data, n⟩)

/-- An address register. -/
def pointer (n : BitVec 3) : Operand := .address (.register ⟨.address, n⟩)

/-- Either kind of register. -/
def register (r : Register) : Operand := .address (.register r)

/-- The operand in assembler notation, for an instruction whose opcode ends at `origin`. -/
def text (origin : Long) : Operand → String
  | .address ea => ea.text
  | .immediate value => "#" ++ value.unsigned
  | .signed value => "#" ++ value.signed
  | .count n => "#" ++ toString n
  | .special r => r.text
  | .control code => ControlRegister.text code
  | .peripheral d n => "(" ++ Hex.unsigned d ++ "," ++ (Base.address n).text ++ ")"
  | .registers mask => RegisterList.text mask
  | .target distance => Hex.lower (origin + distance).toNat
  | .bits ea field => ea.text ++ " " ++ field.text
  | .wide high low => (Register.mk .data high).text ++ "-" ++ (Register.mk .data low).text
  | .division r q => (Register.mk .data r).text ++ ":" ++ (Register.mk .data q).text
  | .comparisons a b u v =>
    (Register.mk .data a).text ++ ":" ++ (Register.mk .data b).text ++ ":" ++
      (Register.mk .data u).text ++ ":" ++ (Register.mk .data v).text
  | .places a b => "(" ++ a.text ++ "):(" ++ b.text ++ ")"
  | .counter n distance => (Register.mk .data n).text ++ ",#" ++ Hex.signed distance
  | .raw w => "$" ++ Hex.lowerPadded 4 w.toNat
  | .caches selection => toString selection.toNat
  | .illegalScope => "(illegal scope)"

end Operand

end Disasm68
