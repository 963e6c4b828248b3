import Disasm68.Width

/-!
# Reading numerals

`Numeral.read` reads an unsigned number below a bound from digits of some radix. One plus sign may
stand in front. Of several faults the leftmost is reported: a character that is no digit, or the
digit at which the number gets too large; where one character is both, it is no digit. A sign
without digits counts as a character that is no digit.

`Hex.readAddress` reads an address in hexadecimal, optionally behind one of the usual marks.
-/

namespace Disasm68

/-- Why a text is not a number. -/
inductive NumeralError where
  | empty
  | invalidDigit
  | tooLarge
  deriving DecidableEq, Repr

/-- The wording of an error. -/
def NumeralError.message : NumeralError → String
  | .empty => "cannot parse integer from empty string"
  | .invalidDigit => "invalid digit found in string"
  | .tooLarge => "number too large to fit in target type"

namespace Numeral

/-- The value of a digit of either case, if the radix has it. -/
def digit? (radix : Nat) (c : Char) : Option Nat :=
  let value :=
    if '0' ≤ c ∧ c ≤ '9' then some (c.toNat - '0'.toNat)
    else if 'a' ≤ c ∧ c ≤ 'z' then some (c.toNat - 'a'.toNat + 10)
    else if 'A' ≤ c ∧ c ≤ 'Z' then some (c.toNat - 'A'.toNat + 10)
    else none
  value.filter (· < radix)

/-- The number that digits continue, as long as it stays below the bound. -/
def readDigits (radix bound : Nat) : (number : Nat) → List Char → Except NumeralError Nat
  | n, [] => .ok n
  | n, c :: cs =>
    match digit? radix c with
    | none => .error .invalidDigit
    | some d =>
      if radix * n + d < bound then readDigits radix bound (radix * n + d) cs
      else .error .tooLarge

/-- The number a text stands for. -/
def read (radix bound : Nat) : List Char → Except NumeralError Nat
  | [] => .error .empty
  | ['+'] => .error .invalidDigit
  | '+' :: c :: cs => readDigits radix bound 0 (c :: cs)
  | c :: cs => readDigits radix bound 0 (c :: cs)

/-- A decimal number that fits into 64 bits. -/
def readCount (text : String) : Except NumeralError Nat :=
  read 10 0x10000000000000000 text.toList

end Numeral

namespace Hex

/-- A hexadecimal numeral without the mark in front of it. -/
def stripMark : List Char → List Char
  | '0' :: 'x' :: digits => digits
  | '0' :: 'X' :: digits => digits
  | '$' :: digits => digits
  | digits => digits

/-- The address a text stands for. -/
def readAddress (text : String) : Except NumeralError Long :=
  BitVec.ofNat 32 <$> Numeral.read 16 0x100000000 (stripMark text.toList)

/-- The wording for a text that is no address. -/
def addressMessage (text : String) (e : NumeralError) : String :=
  "invalid hex address '" ++ text ++ "': " ++ e.message

end Hex

end Disasm68
