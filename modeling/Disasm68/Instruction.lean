import Disasm68.Operand
import Disasm68.Text.Column

/-!
# Instructions

An instruction is a mnemonic, its operands and a note. Its text puts the operands into a column of
their own: the mnemonic is filled up to seven characters and followed by a blank, so that a longer
mnemonic is still set apart. A few families keep an older layout in which one blank always separates
the two.

The note follows a semicolon. It marks what only later processors have and words that are not
instructions at all, and for coprocessor instructions gives the target and the words that the
operands leave out.
-/

namespace Disasm68

/-- What is added to an instruction after a semicolon. -/
inductive Note where
  | empty
  | tag (t : Tag)
  | illegal
  | lineA
  | lineF
  /-- The target of a coprocessor branch, if there is one, and the second word of the encoding. -/
  | coprocessor (distance : Option Long) (extension : Word)
  deriving DecidableEq, Repr

/-- The note with its semicolon, for an instruction whose opcode ends at `origin`. -/
def Note.text (origin : Long) : Note → String
  | .empty => ""
  | .tag t => "; " ++ t.text
  | .illegal => "; ILLEGAL"
  | .lineA => "; opcode 1010"
  | .lineF => "; opcode 1111"
  | .coprocessor distance extension =>
    let target := match distance with
      | some d => Hex.lower (origin + d).toNat ++ " "
      | none => ""
    "; " ++ target ++ "(extension = " ++ Hex.lower extension.toNat ++ ") " ++ Tag.coprocessor.text

/-- A decoded instruction. -/
structure Instruction where
  mnemonic : String
  /-- The mnemonic is filled up to this width. -/
  width : Nat
  operands : List Operand
  note : Note
  deriving DecidableEq, Repr

namespace Instruction

/-- An instruction in the usual layout. -/
def of (mnemonic : String) (operands : List Operand) (note : Note := .empty) : Instruction :=
  ⟨mnemonic, 7, operands, note⟩

/-- An instruction whose mnemonic is not filled up. -/
def compact (mnemonic : String) (operands : List Operand) (note : Note := .empty) : Instruction :=
  ⟨mnemonic, 0, operands, note⟩

/-- Mnemonic and operands. -/
def body (i : Instruction) (origin : Long) : String :=
  let mnemonic := Column.left i.width i.mnemonic
  match i.operands with
  | [] => mnemonic
  | operands => mnemonic ++ " " ++ ", ".intercalate (operands.map (Operand.text origin))

/-- The line of an instruction whose opcode ends at `origin`. -/
def text (i : Instruction) (origin : Long) : String :=
  i.body origin ++ i.note.text origin

end Instruction

end Disasm68
