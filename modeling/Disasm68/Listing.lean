import Disasm68.Listing.Columns
import Disasm68.Listing.Sweep

/-!
# Listings

A listing is the linear sweep of a buffer, one row for each instruction, under three lines of
header. What the sweep left over is shown as data: a word for each two bytes and a byte for a last
one. Each row has an address, its bytes in hexadecimal and a text, of which the first two may be
left out, and each line may carry its number.

The buffer is mapped at its base address reduced to the address bus. The header counts the bytes of
the instructions and of a truncated one, but not a single byte at the end.
-/

namespace Disasm68

/-- How a listing is made and which columns it has. -/
structure ListingOptions where
  cpu : Cpu := .m68000
  base : Long := 0
  hex : Bool := true
  addresses : Bool := true
  lineNumbers : Bool := true
  uppercase : Bool := false
  /-- The greatest number of instructions. -/
  limit : Option Nat := none

/-- A numbered line of text. A row shows two bytes or more, but for a last one, so of a buffer that
fits into an address space no number needs more than 32 bits. -/
structure Line where
  number : Nat
  text : String
  deriving DecidableEq, Repr

/-- The three columns of a line of code or data. -/
structure Row where
  address : Long
  bytes : String
  text : String
  deriving DecidableEq, Repr

namespace Row

/-- The columns that are shown, two blanks apart. -/
def render (options : ListingOptions) (row : Row) : String :=
  "  ".intercalate <|
    (if options.addresses then [Hex.upperPadded 8 row.address.toNat] else []) ++
    (if options.hex then [Column.left 20 row.bytes] else []) ++ [row.text]

/-- The row of an instruction. -/
def code (memory : Memory) (options : ListingOptions) (d : Disassembly) : Row where
  address := d.address
  bytes := d.hexColumn memory
  text := (d.shownText options.uppercase).getD d.text

/-- The row of data under a directive. -/
def data (options : ListingOptions) (address : Long) (directive digits : String) : Row where
  address
  bytes := digits
  text :=
    let shown :=
      if options.uppercase then String.ofList (Uppercase.text directive.toList) else directive
    Column.left 7 shown ++ " $" ++ digits

/-- The row of a byte of data. -/
def byte (options : ListingOptions) (address : Long) (b : Byte) : Row :=
  data options address "dc.b" (Hex.upperPadded 2 b.toNat)

/-- The row of two bytes of data. -/
def word (options : ListingOptions) (address : Long) (high low : Byte) : Row :=
  data options address "dc.w" (Hex.upperPadded 4 (high ++ low).toNat)

/-- The rows of data from an address on. -/
def ofBytes (options : ListingOptions) : (address : Long) → List Byte → List Row
  | address, high :: low :: rest =>
    word options address high low :: ofBytes options (address + 2) rest
  | address, [b] => [byte options address b]
  | _, [] => []

end Row

namespace Tail

/-- The bytes that are left. -/
def bytes : Tail → List Byte
  | .empty => []
  | .stray b => [b]
  | .truncated bs => bs

/-- The number of bytes the header counts. -/
def counted : Tail → Nat
  | .truncated bs => bs.length
  | .empty | .stray _ => 0

end Tail

namespace Sweep

/-- The number of bytes the instructions take. -/
def codeSize (s : Sweep) : Nat :=
  s.code.foldr (fun d n => d.length + n) 0

/-- The number of bytes the header counts. -/
def counted (s : Sweep) : Nat :=
  s.codeSize + s.tail.counted

/-- The rows of code and data. -/
def rows (s : Sweep) (image : Image) (options : ListingOptions) : List Row :=
  s.code.map (Row.code image.memory options) ++
    Row.ofBytes options (image.addressOf s.codeSize) s.tail.bytes

end Sweep

namespace Listing

/-- The buffer, mapped where the processor can reach it. -/
def image (data : Array Byte) (options : ListingOptions) : Image where
  bytes := data
  base := options.base &&& options.cpu.addressMask

/-- The sweep a listing shows. -/
def sweep (data : Array Byte) (options : ListingOptions) : Sweep :=
  (image data options).sweep options.cpu options.limit

/-- The lines above the rows. -/
def header (data : Array Byte) (options : ListingOptions) : List String :=
  let s := sweep data options
  ["; " ++ options.cpu.name ++ " disassembly at $" ++
      Hex.upperPadded 8 (image data options).base.toNat,
    "; instructions: " ++ toString s.code.length ++ ", bytes: " ++ toString s.counted ++ "/" ++
      toString data.size,
    ""]

/-- The rows of code and data. -/
def body (data : Array Byte) (options : ListingOptions) : List Row :=
  (sweep data options).rows (image data options) options

/-- A line with its number, in front of the text if that is wanted. -/
def line (options : ListingOptions) (text : String) (index : Nat) : Line where
  number := index + 1
  text := if options.lineNumbers then Column.right 5 (toString (index + 1)) ++ "  " ++ text
    else text

end Listing

/-- The listing of a buffer. -/
def listing (data : Array Byte) (options : ListingOptions) : List Line :=
  (Listing.header data options ++ (Listing.body data options).map (Row.render options)).mapIdx
    fun index text => Listing.line options text index

end Disasm68
