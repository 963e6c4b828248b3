import Disasm68.Width

/-!
# Registers and register lists

There are eight data and eight address registers. Encodings name either a bank's register by three
bits or any of the sixteen by four, the highest of which selects the bank.

A register list is a mask with bit 0 for `D0` up to bit 15 for `A7`. Its text is canonical: within
each bank the set bits are grouped into maximal runs, a run of one register is written alone and a
longer one as `D0-D3`, and no run crosses from one bank to the other.
-/

namespace Disasm68

/-- The two banks of registers. -/
inductive Bank where
  | data
  | address
  deriving DecidableEq, Repr

/-- The letter that names a bank. -/
def Bank.letter : Bank → String
  | .data => "D"
  | .address => "A"

/-- A data or address register. -/
structure Register where
  bank : Bank
  number : BitVec 3
  deriving DecidableEq, Repr

namespace Register

/-- The register named by four bits, bank first. -/
def ofBits (bits : BitVec 4) : Register where
  bank := if bits.msb then .address else .data
  number := bits.setWidth 3

/-- The name of a register. -/
def text (r : Register) : String :=
  r.bank.letter ++ toString r.number.toNat

end Register

namespace RegisterList

/-- The maximal runs of `true`, as pairs of first and last position, counting from `start`. -/
def runs : (start : Nat) → List Bool → List (Nat × Nat)
  | _, [] => []
  | i, false :: bits => runs (i + 1) bits
  | i, true :: bits =>
    match runs (i + 1) bits with
    | [] => [(i, i)]
    | (first, last) :: later =>
      if first = i + 1 then (i, last) :: later else (i, i) :: (first, last) :: later

/-- A run of registers of one bank. -/
def runText (bank : Bank) (run : Nat × Nat) : String :=
  let first := bank.letter ++ toString run.1
  if run.1 = run.2 then first else first ++ "-" ++ bank.letter ++ toString run.2

/-- The eight bits of a mask that belong to a bank, register 0 first. -/
def bankBits (mask : Word) : Bank → List Bool
  | .data => (List.range 8).map mask.getLsbD
  | .address => (List.range 8).map fun i => mask.getLsbD (8 + i)

/-- The runs of both banks, data registers first. -/
def text (mask : Word) : String :=
  "/".intercalate <|
    (runs 0 (bankBits mask .data)).map (runText .data) ++
    (runs 0 (bankBits mask .address)).map (runText .address)

end RegisterList

end Disasm68
