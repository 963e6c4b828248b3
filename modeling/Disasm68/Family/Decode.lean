import Disasm68.Family
import Disasm68.Instruction
import Disasm68.Opcode.Fields

/-!
# Decoding of operands

`Family.decode` reads the operands of an instruction: from the fields of the opcode and from the
words that follow it, in the order in which they are stored. Given the family, the opcode and the
format of index words, the result depends on nothing but these words.
-/

namespace Disasm68

open EffectiveAddress (postincrement predecrement indirect)
open Instruction (compact)

/-- A branch to a distance of one of three sizes, the shortest of which is part of the opcode. -/
def Branch.decode (opcode : Word) (size : Size) (kind : Branch) : Reader Instruction := do
  let mnemonic := match kind with
    | .conditional => "b" ++ (Opcode.condition opcode).suffix
    | .always => "bra"
    | .subroutine => "bsr"
  match size with
  | .byte => return .of mnemonic [.target ((opcode.setWidth 8).signExtend 32)]
  | .word => return .of mnemonic [.target ((← Reader.nextWord).signExtend 32)]
  | .long => return .of mnemonic [.target (← Reader.nextLong)] (.tag .since020)

/-- The operands of a block move. -/
def BlockMove.decode (opcode : Word) (form : BlockMove) : Reader Instruction := do
  let y := Opcode.y opcode
  let operands ← match form with
    | .between => do
      let extension ← Reader.nextWord
      pure [Operand.address (postincrement y), .address (postincrement (Extension.high extension))]
    | .incrementToAbsolute => do
      pure [.address (postincrement y), .immediate (← Reader.next .long)]
    | .absoluteToIncrement => do
      pure [.immediate (← Reader.next .long), .address (postincrement y)]
    | .indirectToAbsolute => do
      pure [.address (indirect y), .immediate (← Reader.next .long)]
    | .absoluteToIndirect => do
      pure [.immediate (← Reader.next .long), .address (indirect y)]
  return .of "move16" operands (.tag .only040)

/-- A cache operation on a line, a page or everything. -/
def CacheOperation.instruction (opcode : Word) (op : CacheOperation) : Instruction :=
  let caches := Operand.caches (opcode.extractLsb' 6 2)
  let line := Operand.address (indirect (Opcode.y opcode))
  let scope := opcode.extractLsb' 3 2
  if scope = 0 then compact op.name [.illegalScope] (.tag .only040)
  else if scope = 1 then .of (op.name ++ "l") [caches, line] (.tag .only040)
  else if scope = 2 then .of (op.name ++ "p") [caches, line] (.tag .only040)
  else .of (op.name ++ "a") [caches] (.tag .only040)

/-- A coprocessor instruction. Its mnemonic starts with the number of the coprocessor. A branch has
its condition in the opcode, the others have it in the first word that follows. A branch of long
size looks at a long for its target and consumes the first half of it as the displacement shown. -/
def CoprocessorOperation.decode (format : IndexFormat) (opcode : Word) :
    CoprocessorOperation → Reader Instruction
  | .branch size => do
    let extension ← Reader.nextWord
    let ahead ← match size with
      | .long => do pure (some (← Reader.peekLong))
      | _ => pure none
    let displacement ← Reader.nextWord
    return .of (id ++ "b" ++ Coprocessor.condition (opcode.extractLsb' 0 6))
      [.signed (.word displacement)]
      (.coprocessor (some (ahead.getD (displacement.signExtend 32))) extension)
  | .loop => do
    let predicate ← Reader.nextWord
    let extension ← Reader.nextWord
    let displacement ← Reader.nextWord
    return .of (id ++ "db" ++ name predicate) [.counter (Opcode.y opcode) displacement]
      (.coprocessor (some (displacement.signExtend 32)) extension)
  | .general => do
    return .of (id ++ "gen") [.immediate (← Reader.next .long)] (.tag .coprocessor)
  | .restore => do
    return .of (id ++ "restore") [.address (← operand)] (.tag .coprocessor)
  | .save => do
    return .of (id ++ "save") [.address (← operand)] (.tag .coprocessor)
  | .set => do
    let predicate ← Reader.nextWord
    let extension ← Reader.nextWord
    return .of (id ++ "s" ++ name predicate) [.address (← operand)] (.coprocessor none extension)
  | .trap size => do
    let predicate ← Reader.nextWord
    let extension ← Reader.nextWord
    let operands ← match size with
      | none => pure []
      | some size => do pure [Operand.immediate (← Reader.next size)]
    return ⟨id ++ "trap" ++ name predicate, 9, operands, .coprocessor none extension⟩
where
  id : String := Opcode.coprocessor opcode
  name (predicate : Word) : String := Coprocessor.condition (predicate.extractLsb' 0 6)
  operand : Reader EffectiveAddress :=
    EffectiveAddress.decode format (Opcode.field opcode) .byte

/-- The operands of a family. -/
def Family.decode (format : IndexFormat) (opcode : Word) : Family → Reader Instruction
  | .illegal => return compact "dc.w" [.raw opcode] .illegal
  | .lineA => return .of "dc.w" [.raw opcode] .lineA
  | .lineF => return .of "dc.w" [.raw opcode] .lineF
  | .toData op size => do
    return .of (op.name ++ size.suffix) [.address (← operand size), .data x]
  | .fromData op size => do
    return .of (op.name ++ size.suffix) [.data x, .address (← operand size)]
  | .toAddress op size => do
    return .of (op.name ++ "a" ++ size.suffix) [.address (← operand size), .pointer x]
  | .immediate op size => do
    let value ← Reader.next size
    let value := if op.isLogical then Operand.immediate value else Operand.signed value
    return .of (op.name ++ "i" ++ size.suffix) [value, .address (← operand size)]
  | .compareProgram size => do
    let value ← Reader.next size
    return .of ("cmpi" ++ size.suffix) [.signed value, .address (← operand size)] (.tag .since020)
  | .immediateToCcr op => do
    return .of (op.name ++ "i") [.immediate (← Reader.next .byte), .special .ccr]
  | .immediateToSr op => do
    return .of (op.name ++ "i") [.immediate (← Reader.next .word), .special .sr]
  | .addq size => do
    return .of ("addq" ++ size.suffix) [.count (Opcode.quick opcode), .address (← operand size)]
  | .subq size => do
    return .of ("subq" ++ size.suffix) [.count (Opcode.quick opcode), .address (← operand size)]
  | .extendedRegisters op size => return .of (op.mnemonic size) [.data y, .data x]
  | .extendedMemory op size =>
    return .of (op.mnemonic size) [.address (predecrement y), .address (predecrement x)]
  | .cmpm size =>
    return .of ("cmpm" ++ size.suffix) [.address (postincrement y), .address (postincrement x)]
  | .unary op size => do
    return .of (op.name ++ size.suffix) [.address (← operand size)]
  | .testExtended size => do
    return .of ("tst" ++ size.suffix) [.address (← operand size)] (.tag .since020)
  | .nbcd => do return .of "nbcd" [.address (← operand .byte)]
  | .tas => do return .of "tas" [.address (← operand .byte)]
  | .ext size => return .of ("ext" ++ size.suffix) [.data y]
  | .extb => return .of "extb.l" [.data y] (.tag .since020)
  | .swap => return .of "swap" [.data y]
  | .exchange .data => return .of "exg" [.data x, .data y]
  | .exchange .addresses => return .of "exg" [.pointer x, .pointer y]
  | .exchange .mixed => return .of "exg" [.data x, .pointer y]
  | .product op => do
    return .of (op.name ++ ".w") [.address (← operand .word), .data x]
  | .divideLong => do
    let extension ← Reader.nextWord
    let divisor := Operand.address (← operand .long)
    let (remainder, quotient) := (Extension.low extension, Extension.high extension)
    let mnemonic := "div" ++ Extension.sign extension
    return if Extension.isWide extension then
      .of (mnemonic ++ ".l") [divisor, .wide remainder quotient] (.tag .since020)
    else if remainder = quotient then
      .of (mnemonic ++ ".l") [divisor, .data quotient] (.tag .since020)
    else
      .of (mnemonic ++ "l.l") [divisor, .division remainder quotient] (.tag .since020)
  | .multiplyLong => do
    let extension ← Reader.nextWord
    let factor := Operand.address (← operand .long)
    let (high, low) := (Extension.low extension, Extension.high extension)
    let mnemonic := "mul" ++ Extension.sign extension ++ ".l"
    return if Extension.isWide extension then
      compact mnemonic [factor, .wide high low] (.tag .since020)
    else
      .of mnemonic [factor, .data low] (.tag .since020)
  | .pack inMemory => do
    return .of "pack" (pair inMemory ++ [.immediate (← Reader.next .word)]) (.tag .since020)
  | .unpack inMemory => do
    return .of "unpk" (pair inMemory ++ [.immediate (← Reader.next .word)]) (.tag .since020)
  | .shiftConstant op size =>
    return .of (op.name ++ size.suffix) [.count (Opcode.quick opcode), .data y]
  | .shiftRegister op size => return .of (op.name ++ size.suffix) [.data x, .data y]
  | .shiftMemory op => do return .of (op.name ++ ".w") [.address (← operand .word)]
  | .bitRegister op => do return .of op.name [.data x, .address (← operand .byte)]
  | .bitConstant op => do
    let number ← Reader.next .byte
    return .of op.name [.immediate number, .address (← operand .byte)]
  | .bitField op => do
    let extension ← Reader.nextWord
    let bits := Operand.bits (← operand .byte) (.ofWord extension)
    return .of op.name
      (if op.hasRegister then [.data (Extension.high extension), bits] else [bits])
      (.tag .since020)
  | .branch kind size => kind.decode opcode size
  | .dbra => do
    let distance ← Reader.nextWord
    return .of "dbra" [.data y, .target (distance.signExtend 32)]
  | .dbcc => do
    let distance ← Reader.nextWord
    return .of ("db" ++ condition) [.data y, .target (distance.signExtend 32)]
  | .scc => do return .of ("s" ++ condition) [.address (← operand .byte)]
  | .trapcc none => return ⟨"trap" ++ condition, 6, [], .tag .since020⟩
  | .trapcc (some size) => do
    return .of ("trap" ++ condition) [.immediate (← Reader.next size)] (.tag .since020)
  | .jmp => do return .of "jmp" [.address (← operand .long)]
  | .jsr => do return .of "jsr" [.address (← operand .long)]
  | .rts => return compact "rts" []
  | .rte => return compact "rte" []
  | .rtr => return compact "rtr" []
  | .rtd => do return .of "rtd" [.signed (← Reader.next .word)] (.tag .since010)
  | .rtm => return .of "rtm" [.register (.ofBits (opcode.extractLsb' 0 4))] (.tag .since020)
  | .callm => do
    let arguments ← Reader.next .byte
    return .of "callm" [.immediate arguments, .address (← operand .byte)] (.tag .only020)
  | .trap => return .of "trap" [.immediate (.byte ((opcode.extractLsb' 0 4).setWidth 8))]
  | .trapv => return compact "trapv" []
  | .chk size => do
    return .of ("chk" ++ size.suffix) [.address (← operand size), .data x]
      (if size = .long then .tag .since020 else .empty)
  | .bounds size => do
    let extension ← Reader.nextWord
    let name := if extension.getLsbD 11 then "chk2" else "cmp2"
    return .of (name ++ size.suffix)
      [.address (← operand size), .register (Extension.register extension)] (.tag .since020)
  | .bkpt => return compact "bkpt" [.count y.toNat] (.tag .since010)
  | .stop => do return .of "stop" [.signed (← Reader.next .word)]
  | .reset => return compact "reset" []
  | .nop => return compact "nop" []
  | .move size => do
    let source ← operand size
    let destination ← EffectiveAddress.decode format (Opcode.destination opcode) size
    return .of ("move" ++ size.suffix) [.address source, .address destination]
  | .movea size => do
    return .of ("movea" ++ size.suffix) [.address (← operand size), .pointer x]
  | .moveq => return .of "moveq" [.signed (.byte (opcode.setWidth 8)), .data x]
  | .moveToCcr => do return .of "move" [.address (← operand .byte), .special .ccr]
  | .moveFromCcr => do
    return .of "move" [.special .ccr, .address (← operand .byte)] (.tag .since010)
  | .moveToSr => do return .of "move" [.address (← operand .word), .special .sr]
  | .moveFromSr => do return .of "move" [.special .sr, .address (← operand .word)]
  | .moveToUsp => return .of "move" [.pointer y, .special .usp]
  | .moveFromUsp => return .of "move" [.special .usp, .pointer y]
  | .movec => do
    let extension ← Reader.nextWord
    let code := extension.extractLsb' 0 12
    let (control, general) := (Operand.control code, Operand.register (Extension.register extension))
    return .of "movec" (if opcode.getLsbD 0 then [general, control] else [control, general])
      (.tag (ControlRegister.tag code))
  | .movem form size => do
    let mask ← Reader.nextWord
    let place := Operand.address (← operand size)
    return .of ("movem" ++ size.suffix) <| match form with
      | .push => [.registers mask.reverse, place]
      | .toMemory => [.registers mask, place]
      | .fromMemory => [place, .registers mask]
  | .movepFromMemory size => do
    return .of ("movep" ++ size.suffix) [.peripheral (← Reader.nextWord) y, .data x]
  | .movepToMemory size => do
    return .of ("movep" ++ size.suffix) [.data x, .peripheral (← Reader.nextWord) y]
  | .moves size => do
    let extension ← Reader.nextWord
    let place := Operand.address (← operand size)
    let general := Operand.register (Extension.register extension)
    return .of ("moves" ++ size.suffix)
      (if extension.getLsbD 11 then [general, place] else [place, general]) (.tag .since010)
  | .move16 form => form.decode opcode
  | .lea => do return .of "lea" [.address (← operand .long), .pointer x]
  | .pea => do return .of "pea" [.address (← operand .long)]
  | .link size => do
    return .of "link" [.pointer y, .signed (← Reader.next size)]
      (if size = .long then .tag .since020 else .empty)
  | .unlk => return .of "unlk" [.pointer y]
  | .cas size => do
    let extension ← Reader.nextWord
    return .of ("cas" ++ size.suffix)
      [.data (Extension.low extension), .data (extension.extractLsb' 8 3),
        .address (← operand size)]
      (.tag .since020)
  | .cas2 size => do
    let extension ← Reader.nextLong
    return .of ("cas2" ++ size.suffix)
      [.comparisons (extension.extractLsb' 16 3) (extension.extractLsb' 0 3)
          (extension.extractLsb' 22 3) (extension.extractLsb' 6 3),
        .places (.ofBits (extension.extractLsb' 28 4)) (.ofBits (extension.extractLsb' 12 4))]
      (.tag .since020)
  | .coprocessor op => op.decode format opcode
  | .cache op => return op.instruction opcode
where
  x : BitVec 3 := Opcode.x opcode
  y : BitVec 3 := Opcode.y opcode
  condition : String := (Opcode.condition opcode).suffix
  operand (size : Size) : Reader EffectiveAddress :=
    EffectiveAddress.decode format (Opcode.field opcode) size
  pair (inMemory : Bool) : List Operand :=
    if inMemory then [.address (predecrement y), .address (predecrement x)] else [.data y, .data x]

end Disasm68
