import Disasm68.Opcode.Pattern

/-!
# The opcode table

`patterns` lists the encodings of all families, in alphabetical order of mnemonics with related
shifts and rotations side by side. The order matters where two patterns that accept an opcode are
equally specific.

Most families come in three sizes, which `sized` writes as three patterns: two bits of the opcode
count from byte to long, and an address register is never accessed as a byte.
-/

namespace Disasm68.OpcodeTable

/-- A family in its three sizes, the byte form at `bits`. -/
def sized (family : Size → Family) (mask bits modes : Word) : List Pattern :=
  [⟨family .byte, mask, bits, modes &&& ~~~AddressMode.addressRegister.bit, .always⟩,
   ⟨family .word, mask, bits + 0x40, modes, .always⟩,
   ⟨family .long, mask, bits + 0x80, modes, .always⟩]

/-- Patterns that only some processors have. -/
def on (availability : Availability) (rows : List Pattern) : List Pattern :=
  rows.map fun p => { p with availability }

/-- A shift or rotation of a register by a constant or a register and of a word in memory. -/
def shifts (op : Shift) (bits memory : Word) : List Pattern :=
  sized (.shiftConstant op) 0xf1f8 bits 0x000 ++
  sized (.shiftRegister op) 0xf1f8 (bits + 0x20) 0x000 ++
  [⟨.shiftMemory op, 0xffc0, memory, 0x3f8, .always⟩]

/-- A branch with its short, word and long displacement. -/
def branches (kind : Branch) (mask bits : Word) : List Pattern :=
  [⟨.branch kind .byte, mask, bits, 0x000, .always⟩,
   ⟨.branch kind .word, mask ||| 0x00ff, bits, 0x000, .always⟩,
   ⟨.branch kind .long, mask ||| 0x00ff, bits ||| 0x00ff, 0x000, .since .g68020⟩]

/-- A test of one size and, from the 68020 on, of the operands the first pattern refuses. -/
def tests (size : Size) (bits : Word) : List Pattern :=
  [⟨.unary .tst size, 0xffc0, bits, 0xbf8, .always⟩] ++
  on (.since .g68020)
    ((if size = .byte then [] else [⟨.testExtended size, 0xfff8, bits ||| 0x08, 0x000, .always⟩]) ++
     [⟨.testExtended size, 0xffff, bits ||| 0x3a, 0x000, .always⟩,
      ⟨.testExtended size, 0xffff, bits ||| 0x3b, 0x000, .always⟩,
      ⟨.testExtended size, 0xffff, bits ||| 0x3c, 0x000, .always⟩])

/-- A comparison with an immediate of one size and, from the 68020 on, of operands relative to the
program counter. -/
def comparisons (size : Size) (bits : Word) : List Pattern :=
  [⟨.immediate .cmp size, 0xffc0, bits, 0xbf8, .always⟩,
   ⟨.compareProgram size, 0xffff, bits ||| 0x3a, 0x000, .since .g68020⟩,
   ⟨.compareProgram size, 0xffff, bits ||| 0x3b, 0x000, .since .g68020⟩]

/-- Words of lines A and F that no other pattern accepts. -/
def lines : List Pattern :=
  [⟨.lineA, 0xf000, 0xa000, 0x000, .always⟩,
   ⟨.lineF, 0xf000, 0xf000, 0x000, .always⟩]

/-- From `abcd` to `asl`. -/
def rowsA : List Pattern :=
  [⟨.extendedRegisters .abcd .byte, 0xf1f8, 0xc100, 0x000, .always⟩,
   ⟨.extendedMemory .abcd .byte, 0xf1f8, 0xc108, 0x000, .always⟩] ++
  sized (.toData .add) 0xf1c0 0xd000 0xfff ++
  sized (.fromData .add) 0xf1c0 0xd100 0x3f8 ++
  [⟨.toAddress .add .word, 0xf1c0, 0xd0c0, 0xfff, .always⟩,
   ⟨.toAddress .add .long, 0xf1c0, 0xd1c0, 0xfff, .always⟩] ++
  sized (.immediate .add) 0xffc0 0x0600 0xbf8 ++
  sized .addq 0xf1c0 0x5000 0xff8 ++
  sized (.extendedRegisters .addx) 0xf1f8 0xd100 0x000 ++
  sized (.extendedMemory .addx) 0xf1f8 0xd108 0x000 ++
  sized (.toData .and) 0xf1c0 0xc000 0xbff ++
  sized (.fromData .and) 0xf1c0 0xc100 0x3f8 ++
  [⟨.immediateToCcr .and, 0xffff, 0x023c, 0x000, .always⟩,
   ⟨.immediateToSr .and, 0xffff, 0x027c, 0x000, .always⟩] ++
  sized (.immediate .and) 0xffc0 0x0200 0xbf8 ++
  shifts .asr 0xe000 0xe0c0 ++
  shifts .asl 0xe100 0xe1c0

/-- From the conditional branches to `btst`. -/
def rowsB : List Pattern :=
  branches .conditional 0xf000 0x6000 ++
  [⟨.bitRegister .bchg, 0xf1c0, 0x0140, 0xbf8, .always⟩,
   ⟨.bitConstant .bchg, 0xffc0, 0x0840, 0xbf8, .always⟩,
   ⟨.bitRegister .bclr, 0xf1c0, 0x0180, 0xbf8, .always⟩,
   ⟨.bitConstant .bclr, 0xffc0, 0x0880, 0xbf8, .always⟩] ++
  on (.since .g68020)
    [⟨.bitField .bfchg, 0xffc0, 0xeac0, 0xa78, .always⟩,
     ⟨.bitField .bfclr, 0xffc0, 0xecc0, 0xa78, .always⟩,
     ⟨.bitField .bfexts, 0xffc0, 0xebc0, 0xa7b, .always⟩,
     ⟨.bitField .bfextu, 0xffc0, 0xe9c0, 0xa7b, .always⟩,
     ⟨.bitField .bfffo, 0xffc0, 0xedc0, 0xa7b, .always⟩,
     ⟨.bitField .bfins, 0xffc0, 0xefc0, 0xa78, .always⟩,
     ⟨.bitField .bfset, 0xffc0, 0xeec0, 0xa78, .always⟩,
     ⟨.bitField .bftst, 0xffc0, 0xe8c0, 0xa7b, .always⟩] ++
  [⟨.bkpt, 0xfff8, 0x4848, 0x000, .since .g68010⟩] ++
  branches .always 0xff00 0x6000 ++
  [⟨.bitRegister .bset, 0xf1c0, 0x01c0, 0xbf8, .always⟩,
   ⟨.bitConstant .bset, 0xffc0, 0x08c0, 0xbf8, .always⟩] ++
  branches .subroutine 0xff00 0x6100 ++
  [⟨.bitRegister .btst, 0xf1c0, 0x0100, 0xbff, .always⟩,
   ⟨.bitConstant .btst, 0xffc0, 0x0800, 0xbfb, .always⟩]

/-- From `callm` to `cpush`. -/
def rowsC : List Pattern :=
  [⟨.callm, 0xffc0, 0x06c0, 0x27b, .only .g68020⟩] ++
  on (.since .g68020)
    [⟨.cas .byte, 0xffc0, 0x0ac0, 0x3f8, .always⟩,
     ⟨.cas .word, 0xffc0, 0x0cc0, 0x3f8, .always⟩,
     ⟨.cas .long, 0xffc0, 0x0ec0, 0x3f8, .always⟩,
     ⟨.cas2 .word, 0xffff, 0x0cfc, 0x000, .always⟩,
     ⟨.cas2 .long, 0xffff, 0x0efc, 0x000, .always⟩] ++
  [⟨.chk .word, 0xf1c0, 0x4180, 0xbff, .always⟩] ++
  on (.since .g68020)
    [⟨.chk .long, 0xf1c0, 0x4100, 0xbff, .always⟩,
     ⟨.bounds .byte, 0xffc0, 0x00c0, 0x27b, .always⟩,
     ⟨.bounds .word, 0xffc0, 0x02c0, 0x27b, .always⟩,
     ⟨.bounds .long, 0xffc0, 0x04c0, 0x27b, .always⟩] ++
  [⟨.cache .cinv, 0xff20, 0xf400, 0x000, .since .g68040⟩] ++
  sized (.unary .clr) 0xffc0 0x4200 0xbf8 ++
  sized (.toData .cmp) 0xf1c0 0xb000 0xfff ++
  [⟨.toAddress .cmp .word, 0xf1c0, 0xb0c0, 0xfff, .always⟩,
   ⟨.toAddress .cmp .long, 0xf1c0, 0xb1c0, 0xfff, .always⟩] ++
  comparisons .byte 0x0c00 ++
  comparisons .word 0x0c40 ++
  comparisons .long 0x0c80 ++
  sized .cmpm 0xf1f8 0xb108 0x000 ++
  on (.since .g68020)
    [⟨.coprocessor (.branch .word), 0xf1c0, 0xf080, 0x000, .always⟩,
     ⟨.coprocessor (.branch .long), 0xf1c0, 0xf0c0, 0x000, .always⟩,
     ⟨.coprocessor .loop, 0xf1f8, 0xf048, 0x000, .always⟩,
     ⟨.coprocessor .general, 0xf1c0, 0xf000, 0x000, .always⟩,
     ⟨.coprocessor .restore, 0xf1c0, 0xf140, 0x37f, .always⟩,
     ⟨.coprocessor .save, 0xf1c0, 0xf100, 0x2f8, .always⟩,
     ⟨.coprocessor .set, 0xf1c0, 0xf040, 0xbf8, .always⟩,
     ⟨.coprocessor (.trap none), 0xf1ff, 0xf07c, 0x000, .always⟩,
     ⟨.coprocessor (.trap (some .word)), 0xf1ff, 0xf07a, 0x000, .always⟩,
     ⟨.coprocessor (.trap (some .long)), 0xf1ff, 0xf07b, 0x000, .always⟩] ++
  [⟨.cache .cpush, 0xff20, 0xf420, 0x000, .since .g68040⟩]

/-- From the loops to `illegal`. -/
def rowsD : List Pattern :=
  [⟨.dbcc, 0xf0f8, 0x50c8, 0x000, .always⟩,
   ⟨.dbra, 0xfff8, 0x51c8, 0x000, .always⟩,
   ⟨.product .divs, 0xf1c0, 0x81c0, 0xbff, .always⟩,
   ⟨.product .divu, 0xf1c0, 0x80c0, 0xbff, .always⟩,
   ⟨.divideLong, 0xffc0, 0x4c40, 0xbff, .since .g68020⟩] ++
  sized (.fromData .eor) 0xf1c0 0xb100 0xbf8 ++
  [⟨.immediateToCcr .eor, 0xffff, 0x0a3c, 0x000, .always⟩,
   ⟨.immediateToSr .eor, 0xffff, 0x0a7c, 0x000, .always⟩] ++
  sized (.immediate .eor) 0xffc0 0x0a00 0xbf8 ++
  [⟨.exchange .data, 0xf1f8, 0xc140, 0x000, .always⟩,
   ⟨.exchange .addresses, 0xf1f8, 0xc148, 0x000, .always⟩,
   ⟨.exchange .mixed, 0xf1f8, 0xc188, 0x000, .always⟩,
   ⟨.extb, 0xfff8, 0x49c0, 0x000, .since .g68020⟩,
   ⟨.ext .word, 0xfff8, 0x4880, 0x000, .always⟩,
   ⟨.ext .long, 0xfff8, 0x48c0, 0x000, .always⟩,
   .illegal]

/-- From `jmp` to `lsl`. -/
def rowsJ : List Pattern :=
  [⟨.jmp, 0xffc0, 0x4ec0, 0x27b, .always⟩,
   ⟨.jsr, 0xffc0, 0x4e80, 0x27b, .always⟩,
   ⟨.lea, 0xf1c0, 0x41c0, 0x27b, .always⟩,
   ⟨.link .word, 0xfff8, 0x4e50, 0x000, .always⟩,
   ⟨.link .long, 0xfff8, 0x4808, 0x000, .since .g68020⟩] ++
  shifts .lsr 0xe008 0xe2c0 ++
  shifts .lsl 0xe108 0xe3c0

/-- From `move` to the multiplications. -/
def rowsM : List Pattern :=
  [⟨.move .byte, 0xf000, 0x1000, 0xbff, .always⟩,
   ⟨.move .word, 0xf000, 0x3000, 0xfff, .always⟩,
   ⟨.move .long, 0xf000, 0x2000, 0xfff, .always⟩,
   ⟨.movea .word, 0xf1c0, 0x3040, 0xfff, .always⟩,
   ⟨.movea .long, 0xf1c0, 0x2040, 0xfff, .always⟩,
   ⟨.moveToCcr, 0xffc0, 0x44c0, 0xbff, .always⟩,
   ⟨.moveFromCcr, 0xffc0, 0x42c0, 0xbf8, .since .g68010⟩,
   ⟨.moveToSr, 0xffc0, 0x46c0, 0xbff, .always⟩,
   ⟨.moveFromSr, 0xffc0, 0x40c0, 0xbf8, .always⟩,
   ⟨.moveToUsp, 0xfff8, 0x4e60, 0x000, .always⟩,
   ⟨.moveFromUsp, 0xfff8, 0x4e68, 0x000, .always⟩,
   ⟨.movec, 0xfffe, 0x4e7a, 0x000, .since .g68010⟩,
   ⟨.movem .push .word, 0xfff8, 0x48a0, 0x000, .always⟩,
   ⟨.movem .push .long, 0xfff8, 0x48e0, 0x000, .always⟩,
   ⟨.movem .toMemory .word, 0xffc0, 0x4880, 0x2f8, .always⟩,
   ⟨.movem .toMemory .long, 0xffc0, 0x48c0, 0x2f8, .always⟩,
   ⟨.movem .fromMemory .word, 0xffc0, 0x4c80, 0x37b, .always⟩,
   ⟨.movem .fromMemory .long, 0xffc0, 0x4cc0, 0x37b, .always⟩,
   ⟨.movepFromMemory .word, 0xf1f8, 0x0108, 0x000, .always⟩,
   ⟨.movepFromMemory .long, 0xf1f8, 0x0148, 0x000, .always⟩,
   ⟨.movepToMemory .word, 0xf1f8, 0x0188, 0x000, .always⟩,
   ⟨.movepToMemory .long, 0xf1f8, 0x01c8, 0x000, .always⟩] ++
  on (.since .g68010) (sized .moves 0xffc0 0x0e00 0x3f8) ++
  [⟨.moveq, 0xf100, 0x7000, 0x000, .always⟩] ++
  on (.since .g68040)
    [⟨.move16 .between, 0xfff8, 0xf620, 0x000, .always⟩,
     ⟨.move16 .incrementToAbsolute, 0xfff8, 0xf600, 0x000, .always⟩,
     ⟨.move16 .absoluteToIncrement, 0xfff8, 0xf608, 0x000, .always⟩,
     ⟨.move16 .indirectToAbsolute, 0xfff8, 0xf610, 0x000, .always⟩,
     ⟨.move16 .absoluteToIndirect, 0xfff8, 0xf618, 0x000, .always⟩] ++
  [⟨.product .muls, 0xf1c0, 0xc1c0, 0xbff, .always⟩,
   ⟨.product .mulu, 0xf1c0, 0xc0c0, 0xbff, .always⟩,
   ⟨.multiplyLong, 0xffc0, 0x4c00, 0xbff, .since .g68020⟩]

/-- From `nbcd` to `pea`. -/
def rowsN : List Pattern :=
  [⟨.nbcd, 0xffc0, 0x4800, 0xbf8, .always⟩] ++
  sized (.unary .neg) 0xffc0 0x4400 0xbf8 ++
  sized (.unary .negx) 0xffc0 0x4000 0xbf8 ++
  [⟨.nop, 0xffff, 0x4e71, 0x000, .always⟩] ++
  sized (.unary .not) 0xffc0 0x4600 0xbf8 ++
  sized (.toData .or) 0xf1c0 0x8000 0xbff ++
  sized (.fromData .or) 0xf1c0 0x8100 0x3f8 ++
  [⟨.immediateToCcr .or, 0xffff, 0x003c, 0x000, .always⟩,
   ⟨.immediateToSr .or, 0xffff, 0x007c, 0x000, .always⟩] ++
  sized (.immediate .or) 0xffc0 0x0000 0xbf8 ++
  [⟨.pack false, 0xf1f8, 0x8140, 0x000, .since .g68020⟩,
   ⟨.pack true, 0xf1f8, 0x8148, 0x000, .since .g68020⟩,
   ⟨.pea, 0xffc0, 0x4840, 0x27b, .always⟩]

/-- From `reset` to `rts`. -/
def rowsR : List Pattern :=
  [⟨.reset, 0xffff, 0x4e70, 0x000, .always⟩] ++
  shifts .ror 0xe018 0xe6c0 ++
  shifts .rol 0xe118 0xe7c0 ++
  shifts .roxr 0xe010 0xe4c0 ++
  shifts .roxl 0xe110 0xe5c0 ++
  [⟨.rtd, 0xffff, 0x4e74, 0x000, .since .g68010⟩,
   ⟨.rte, 0xffff, 0x4e73, 0x000, .always⟩,
   ⟨.rtm, 0xfff0, 0x06c0, 0x000, .only .g68020⟩,
   ⟨.rtr, 0xffff, 0x4e77, 0x000, .always⟩,
   ⟨.rts, 0xffff, 0x4e75, 0x000, .always⟩]

/-- From `sbcd` to `swap`. -/
def rowsS : List Pattern :=
  [⟨.extendedRegisters .sbcd .byte, 0xf1f8, 0x8100, 0x000, .always⟩,
   ⟨.extendedMemory .sbcd .byte, 0xf1f8, 0x8108, 0x000, .always⟩,
   ⟨.scc, 0xf0c0, 0x50c0, 0xbf8, .always⟩,
   ⟨.stop, 0xffff, 0x4e72, 0x000, .always⟩] ++
  sized (.toData .sub) 0xf1c0 0x9000 0xfff ++
  sized (.fromData .sub) 0xf1c0 0x9100 0x3f8 ++
  [⟨.toAddress .sub .word, 0xf1c0, 0x90c0, 0xfff, .always⟩,
   ⟨.toAddress .sub .long, 0xf1c0, 0x91c0, 0xfff, .always⟩] ++
  sized (.immediate .sub) 0xffc0 0x0400 0xbf8 ++
  sized .subq 0xf1c0 0x5100 0xff8 ++
  sized (.extendedRegisters .subx) 0xf1f8 0x9100 0x000 ++
  sized (.extendedMemory .subx) 0xf1f8 0x9108 0x000 ++
  [⟨.swap, 0xfff8, 0x4840, 0x000, .always⟩]

/-- From `tas` to `unpk`. -/
def rowsT : List Pattern :=
  [⟨.tas, 0xffc0, 0x4ac0, 0xbf8, .always⟩,
   ⟨.trap, 0xfff0, 0x4e40, 0x000, .always⟩,
   ⟨.trapcc none, 0xf0ff, 0x50fc, 0x000, .since .g68020⟩,
   ⟨.trapcc (some .word), 0xf0ff, 0x50fa, 0x000, .since .g68020⟩,
   ⟨.trapcc (some .long), 0xf0ff, 0x50fb, 0x000, .since .g68020⟩,
   ⟨.trapv, 0xffff, 0x4e76, 0x000, .always⟩] ++
  tests .byte 0x4a00 ++
  tests .word 0x4a40 ++
  tests .long 0x4a80 ++
  [⟨.unlk, 0xfff8, 0x4e58, 0x000, .always⟩,
   ⟨.unpack false, 0xf1f8, 0x8180, 0x000, .since .g68020⟩,
   ⟨.unpack true, 0xf1f8, 0x8188, 0x000, .since .g68020⟩]

/-- All patterns. -/
def patterns : List Pattern :=
  lines ++ rowsA ++ rowsB ++ rowsC ++ rowsD ++ rowsJ ++ rowsM ++ rowsN ++ rowsR ++ rowsS ++ rowsT

end Disasm68.OpcodeTable
