import Disasm68.Width

/-!
# The processors of the family

Seven processors are distinguished. They differ for a disassembler in three ways: the width of the
address bus (`addressMask`), the generation of the instruction set (`generation`), and whether an
index word may take the long format (`indexFormat`).

A processor may be given by its id or by its name, in either case and with or without a leading `m`
or `mc`. `ofId_id` and `ofName?_name` say that both are read back.
-/

namespace Disasm68

/-- A processor. -/
inductive Cpu where
  | m68000
  | m68008
  | m68010
  | m68ec020
  | m68020
  | m68030
  | m68040
  deriving DecidableEq, Repr

/-- A generation of the instruction set, oldest first. -/
inductive Generation where
  | g68000
  | g68008
  | g68010
  | g68020
  | g68030
  | g68040
  deriving DecidableEq, Repr

namespace Generation

/-- All generations, oldest first. -/
def all : List Generation :=
  [.g68000, .g68008, .g68010, .g68020, .g68030, .g68040]

/-- The position of a generation in `all`. -/
def rank : Generation → Nat
  | .g68000 => 0
  | .g68008 => 1
  | .g68010 => 2
  | .g68020 => 3
  | .g68030 => 4
  | .g68040 => 5

end Generation

/-- How a processor reads the word that describes an index register. -/
inductive IndexFormat where
  /-- Always a byte displacement and an unscaled index register. -/
  | brief
  /-- A bit of the word chooses between the brief format, with a scale, and the full one. -/
  | full
  deriving DecidableEq, Repr

/-- Why a processor could not be selected. -/
inductive CpuError where
  | unsupportedId (id : Nat)
  | unknownName (name : String)
  deriving DecidableEq, Repr

namespace CpuError

/-- The wording of an error. -/
def message : CpuError → String
  | .unsupportedId id => "unsupported CPU type id " ++ toString id
  | .unknownName name => "unknown CPU type '" ++ name ++
      "' (expected 68000, 68008, 68010, 68EC020, 68020, 68030 or 68040)"

end CpuError

namespace Cpu

/-- All processors, in the order of their ids. -/
def all : List Cpu :=
  [.m68000, .m68008, .m68010, .m68ec020, .m68020, .m68030, .m68040]

/-- The printed name. -/
def name : Cpu → String
  | .m68000 => "68000"
  | .m68008 => "68008"
  | .m68010 => "68010"
  | .m68ec020 => "68EC020"
  | .m68020 => "68020"
  | .m68030 => "68030"
  | .m68040 => "68040"

/-- The numeric id; zero stands for no processor. -/
def id : Cpu → Nat
  | .m68000 => 1
  | .m68008 => 2
  | .m68010 => 3
  | .m68ec020 => 4
  | .m68020 => 5
  | .m68030 => 6
  | .m68040 => 7

/-- The processor with a numeric id. -/
def ofId (id : Nat) : Except CpuError Cpu :=
  match all.find? (·.id = id) with
  | some cpu => .ok cpu
  | none => .error (.unsupportedId id)

/-- A name without the manufacturer's letters. Of the two, `mc` is tried first. -/
def stripMaker : List Char → List Char
  | 'm' :: 'c' :: rest => rest
  | 'm' :: rest => rest
  | name => name

/-- The processor a name stands for: its printed name in either case, with or without the
manufacturer's letters in front. -/
def ofName? (name : String) : Option Cpu :=
  let bare := stripMaker (name.toList.map Char.toLower)
  all.find? fun cpu => cpu.name.toList.map Char.toLower = bare

/-- The processor a name stands for, or the name as it was given. -/
def ofName (text : String) : Except CpuError Cpu :=
  match ofName? text with
  | some cpu => .ok cpu
  | none => .error (.unknownName text)

/-- Every id is read back. -/
theorem ofId_id (cpu : Cpu) : ofId cpu.id = .ok cpu := by
  cases cpu <;> rfl

/-- Every printed name is read back. -/
theorem ofName?_name (cpu : Cpu) : ofName? cpu.name = some cpu := by
  cases cpu <;> decide

/-- The address lines that reach memory: 24 on the 68000, 68010 and 68EC020, 22 on the 68008, and
all 32 on the others. -/
def addressMask : Cpu → Long
  | .m68000 | .m68010 | .m68ec020 => 0x00ffffff
  | .m68008 => 0x003fffff
  | .m68020 | .m68030 | .m68040 => 0xffffffff

/-- The generation whose instructions a processor executes. -/
def generation : Cpu → Generation
  | .m68000 => .g68000
  | .m68008 => .g68008
  | .m68010 => .g68010
  | .m68ec020 | .m68020 => .g68020
  | .m68030 => .g68030
  | .m68040 => .g68040

/-- Scaled and full index words came with the 68020. -/
def indexFormat : Cpu → IndexFormat
  | .m68000 | .m68008 | .m68010 => .brief
  | .m68ec020 | .m68020 | .m68030 | .m68040 => .full

end Cpu

end Disasm68
