import Disasm68.CommandLine.FileTree
import Disasm68.CommandLine.Options
import Disasm68.CommandLine.Path
import Disasm68.CommandLine.Program
import Disasm68.Condition
import Disasm68.Cpu
import Disasm68.Cpu.Availability
import Disasm68.Disassembly
import Disasm68.Family
import Disasm68.Family.Decode
import Disasm68.Instruction
import Disasm68.Listing
import Disasm68.Listing.Columns
import Disasm68.Listing.Sweep
import Disasm68.Main
import Disasm68.Memory
import Disasm68.Memory.Cursor
import Disasm68.Memory.Reader
import Disasm68.Numeral.Hex
import Disasm68.Numeral.Reading
import Disasm68.Opcode.Fields
import Disasm68.Opcode.Lookup
import Disasm68.Opcode.Pattern
import Disasm68.Opcode.Table
import Disasm68.Operand
import Disasm68.Operand.AddressMode
import Disasm68.Operand.EffectiveAddress
import Disasm68.Operand.Register
import Disasm68.Proofs.CommandLine.Arguments
import Disasm68.Proofs.CommandLine.FileTree
import Disasm68.Proofs.CommandLine.Options
import Disasm68.Proofs.CommandLine.Program
import Disasm68.Proofs.CommandLine.Values
import Disasm68.Proofs.Disassembly.AddressSpace
import Disasm68.Proofs.Disassembly.Agreement
import Disasm68.Proofs.Disassembly.Body
import Disasm68.Proofs.Disassembly.Columns
import Disasm68.Proofs.Disassembly.Compatibility
import Disasm68.Proofs.Disassembly.Displacement
import Disasm68.Proofs.Disassembly.FixedLength
import Disasm68.Proofs.Disassembly.Length
import Disasm68.Proofs.Disassembly.Line
import Disasm68.Proofs.Disassembly.Locality
import Disasm68.Proofs.Disassembly.Modes
import Disasm68.Proofs.Disassembly.Relocation
import Disasm68.Proofs.Disassembly.Step
import Disasm68.Proofs.Disassembly.Tags
import Disasm68.Proofs.Disassembly.Validity
import Disasm68.Proofs.Family.BriefWords
import Disasm68.Proofs.Family.IndexWords
import Disasm68.Proofs.Family.Layout
import Disasm68.Proofs.Family.Letters
import Disasm68.Proofs.Family.Mnemonic
import Disasm68.Proofs.Family.Operands
import Disasm68.Proofs.Family.Printable
import Disasm68.Proofs.Family.Shows
import Disasm68.Proofs.Family.Step
import Disasm68.Proofs.Family.Tags
import Disasm68.Proofs.Family.Target
import Disasm68.Proofs.Family.Words
import Disasm68.Proofs.Instruction
import Disasm68.Proofs.Listing.Columns
import Disasm68.Proofs.Listing.Count
import Disasm68.Proofs.Listing.Extension
import Disasm68.Proofs.Listing.Extent
import Disasm68.Proofs.Listing.Limit
import Disasm68.Proofs.Listing.Lines
import Disasm68.Proofs.Listing.Overlap
import Disasm68.Proofs.Listing.Partition
import Disasm68.Proofs.Listing.Rebase
import Disasm68.Proofs.Listing.Restart
import Disasm68.Proofs.Listing.Run
import Disasm68.Proofs.Listing.Sweep
import Disasm68.Proofs.Listing.Uppercase
import Disasm68.Proofs.Memory.Bus
import Disasm68.Proofs.Memory.Image
import Disasm68.Proofs.Memory.Slice
import Disasm68.Proofs.Numeral.Bytes
import Disasm68.Proofs.Numeral.Count
import Disasm68.Proofs.Numeral.Hex
import Disasm68.Proofs.Numeral.Reading
import Disasm68.Proofs.Numeral.Signed
import Disasm68.Proofs.Opcode.Availability
import Disasm68.Proofs.Opcode.Modes
import Disasm68.Proofs.Opcode.Resolution
import Disasm68.Proofs.Operand.Composed
import Disasm68.Proofs.Operand.EffectiveAddress
import Disasm68.Proofs.Operand.IndexWord
import Disasm68.Proofs.Operand.Items
import Disasm68.Proofs.Operand.Location
import Disasm68.Proofs.Operand.Notation
import Disasm68.Proofs.Operand.Parts
import Disasm68.Proofs.Operand.Printable
import Disasm68.Proofs.Operand.Register
import Disasm68.Proofs.Operand.RegisterList
import Disasm68.Proofs.Operand.Runs
import Disasm68.Proofs.Operand.Shape
import Disasm68.Proofs.Operand.Tags
import Disasm68.Proofs.Reader.Agree
import Disasm68.Proofs.Reader.Ensures
import Disasm68.Proofs.Reader.Fetches
import Disasm68.Proofs.Reader.Shows
import Disasm68.Proofs.Text.Composed
import Disasm68.Proofs.Text.Intercalate
import Disasm68.Proofs.Text.Printable
import Disasm68.Proofs.Text.Solid
import Disasm68.Text.Blank
import Disasm68.Text.Column
import Disasm68.Text.Uppercase
import Disasm68.Width
