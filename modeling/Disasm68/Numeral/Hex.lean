/-!
# Hexadecimal numerals

Numbers are printed with as few lower-case digits as they need, except in the columns of a listing
and in data directives, where the digits are upper-case or zero-padded to the width of the field.

A signed value is printed as a sign and a magnitude, behind the `$` that marks a hexadecimal
numeral: the byte `ff` is `-$1`. The most negative value of a width is its own negation, so it
prints as its magnitude, `-$80` for a byte, and no two values of one width share a text.
-/

namespace Disasm68.Hex

/-- The shortest lower-case numeral of `n`. -/
def lower (n : Nat) : String :=
  String.ofList (Nat.toDigits 16 n)

/-- The lower-case numeral of `n`, zero-padded to `width` digits. -/
def lowerPadded (width n : Nat) : String :=
  String.ofList ((Nat.toDigits 16 n).leftpad width '0')

/-- The upper-case numeral of `n`, zero-padded to `width` digits. -/
def upperPadded (width n : Nat) : String :=
  String.ofList (((Nat.toDigits 16 n).map Char.toUpper).leftpad width '0')

/-- A bit pattern read as an unsigned number: `$ff`. -/
def unsigned {w : Nat} (v : BitVec w) : String :=
  "$" ++ lower v.toNat

/-- A bit pattern read as a two's-complement number: `$7f`, `-$1`, `-$80`. -/
def signed {w : Nat} (v : BitVec w) : String :=
  if v.msb then "-$" ++ lower (-v).toNat else "$" ++ lower v.toNat

end Disasm68.Hex
