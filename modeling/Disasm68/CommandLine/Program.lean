import Disasm68.CommandLine.Options
import Disasm68.Listing

/-!
# The program behind the command line

`program` does what the arguments ask for and answers with an `Outcome`: a text for standard output
or what went wrong. It reaches files only through the two operations of `Files`, in whatever monad
these live, so the same program runs on a disk and on a `FileTree` held in memory.

Nothing is written before everything else has succeeded. The exit code is 0 on success, 1 if a file
stood in the way and 2 if the arguments make no sense.
-/

namespace Disasm68.CommandLine

/-- Why a file could not be read or written. -/
inductive FileError where
  | notFound
  | notADirectory
  | isADirectory
  | nameTooLong
  | other (message : String)
  deriving DecidableEq, Repr

/-- The wording of a file error. -/
def FileError.message : FileError → String
  | .notFound => "No such file or directory (os error 2)"
  | .notADirectory => "Not a directory (os error 20)"
  | .isADirectory => "Is a directory (os error 21)"
  | .nameTooLong => "File name too long (os error 36)"
  | .other message => message

/-- Access to files. -/
structure Files (m : Type → Type) where
  /-- The bytes of a file. -/
  read : (path : String) → m (Except FileError (Array Byte))
  /-- Replace a file by a text. -/
  write : (path text : String) → m (Except FileError Unit)

/-- A start behind the end of a file. -/
structure RangeError where
  offset : Nat
  size : Nat
  deriving DecidableEq, Repr

/-- The wording of a range error. -/
def RangeError.message (e : RangeError) : String :=
  "offset " ++ toString e.offset ++ " is past the end of the file (" ++ toString e.size ++
    " bytes)"

/-- The bytes of a file from an offset on, at most as many as asked for. -/
def selectRange (data : Array Byte) (offset : Nat) (length : Option Nat) :
    Except RangeError (Array Byte) :=
  if data.size < offset then .error ⟨offset, data.size⟩
  else
    let rest := data.extract offset
    .ok <| match length with
      | some n => rest.take n
      | none => rest

/-- Why there is no listing. -/
inductive Failure where
  | noInput
  | reading (path : String) (cause : FileError)
  | selecting (path : String) (cause : RangeError)
  | writing (path : String) (cause : FileError)
  deriving DecidableEq, Repr

/-- The wording of a failure, the cause in a paragraph of its own. -/
def Failure.message : Failure → String
  | .noInput => "Error: no input file given (use --stats for opcode statistics)"
  | .reading path cause => caused ("reading '" ++ path ++ "'") cause.message
  | .selecting path cause => caused ("selecting bytes of '" ++ path ++ "'") cause.message
  | .writing path cause => caused ("writing '" ++ path ++ "'") cause.message
where
  caused (context cause : String) : String :=
    "Error: " ++ context ++ "\n\nCaused by:\n    " ++ cause

/-- How a run of the program ends. -/
inductive Outcome where
  | success (stdout : String)
  | failure (e : Failure)
  /-- The arguments make no sense. -/
  | misuse (e : UsageError)
  deriving DecidableEq, Repr

namespace Outcome

/-- The exit code. -/
def code : Outcome → Nat
  | .success _ => 0
  | .failure _ => 1
  | .misuse _ => 2

/-- The text for standard output. -/
def stdout : Outcome → String
  | .success text => text
  | .failure _ | .misuse _ => ""

/-- The text for standard error. -/
def stderr : Outcome → Option String
  | .success _ => none
  | .failure e => some e.message
  | .misuse e => some e.message

end Outcome

/-- The version of the program. -/
def versionText : String := "m68kdasm 0.1.0\n"

/-- The options in brief. -/
def helpText : String :=
  "Usage: m68kdasm [options] [file]\n\n" ++
  "  -o, --output <path>    write the listing to a file\n" ++
  "  -c, --cpu <name>       processor to decode for [68000]\n" ++
  "  -b, --base <hex>       address of the first byte [0]\n" ++
  "      --offset <n>       skip bytes of the file [0]\n" ++
  "      --length <n>       greatest number of bytes\n" ++
  "  -n, --count <n>        greatest number of instructions\n" ++
  "      --no-hex           leave out the bytes\n" ++
  "      --no-addresses     leave out the addresses\n" ++
  "      --no-line-numbers  leave out the line numbers\n" ++
  "      --uppercase        mnemonics in upper case\n" ++
  "      --stats            count the opcodes of each processor\n" ++
  "  -v, --verbose          accepted and ignored\n" ++
  "  -h, --help             this text\n" ++
  "  -V, --version          the version of the program\n"

/-- How many opcode words each processor accepts. The pattern of an opcode is looked up once for
all processors. -/
def statsText : String :=
  let found := Opcode.all.map Pattern.ofOpcode
  "Valid opcode words per CPU type (of 65536):\n" ++
  String.join (Cpu.all.map fun cpu =>
    let count := found.countP fun p => !p.isIllegal && p.availability.allows cpu
    "  " ++ Column.left 8 cpu.name ++ " " ++ Column.right 6 (toString count) ++ "\n")

namespace Options

/-- How the listing is made. -/
def listing (o : Options) : ListingOptions where
  cpu := o.cpu.getD .m68000
  base := o.base.getD 0
  hex := !o.has .noHex
  addresses := !o.has .noAddresses
  lineNumbers := !o.has .noLineNumbers
  uppercase := o.has .uppercase
  limit := o.count

/-- The text of the listing of a file, each line ended by a newline. -/
def listingText (o : Options) (data : Array Byte) : Except RangeError String :=
  return String.join
    ((Disasm68.listing (← selectRange data (o.offset.getD 0) o.length) o.listing).map
      fun line => line.text ++ "\n")

end Options

section Program

variable {m : Type → Type} [Monad m] (files : Files m)

/-- Send the listing of a file to where it belongs. -/
def disassembleFile (o : Options) (path : String) : m Outcome := do
  match ← files.read path with
  | .error e => return .failure (.reading path e)
  | .ok data =>
    match o.listingText data, o.output with
    | .error e, _ => return .failure (.selecting path e)
    | .ok text, none => return .success text
    | .ok text, some target =>
      match ← files.write target text with
      | .error e => return .failure (.writing target e)
      | .ok () => return .success ""

/-- Do what the arguments ask for. -/
def program (arguments : List String) : m Outcome :=
  match Request.ofArguments arguments with
  | .error e => return .misuse e
  | .ok .version => return .success versionText
  | .ok .help => return .success helpText
  | .ok (.run o) =>
    if o.has .stats then return .success statsText
    else match o.input with
      | none => return .failure .noInput
      | some path => disassembleFile files o path

end Program

end Disasm68.CommandLine
