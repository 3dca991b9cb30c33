/-!
# Unsigned numerals

Reading of unsigned numbers as options write them. A numeral is an optional `+` and then digits
of the base; its value has to stay below a bound. Digits are taken from the left, so the first
thing wrong on that way is what is reported: a character that is no digit, or the digit with
which the value leaves the bound.

`Numeral.parse` reads one base, and `Numeral.parseMarked` takes `0x` or `0X` as a marker for
base 16 and reads base 10 without it. `Numeral.readBytes` reads a row of bytes.
-/

namespace BranchTrace.Text

/-- Why a text is no numeral below the bound. -/
inductive NumeralError where
  /-- Nothing stands where digits are needed. -/
  | empty
  /-- A character is no digit of the base, or a sign stands alone. -/
  | invalidDigit
  /-- The value reaches the bound. -/
  | tooLarge
  deriving DecidableEq, Repr

namespace NumeralError

/-- The sentence shown for a refused numeral. -/
def message : NumeralError → String
  | empty => "cannot parse integer from empty string"
  | invalidDigit => "invalid digit found in string"
  | tooLarge => "number too large to fit in target type"

end NumeralError

namespace Numeral

/-- The value of a digit in either case, if it is one of the base. -/
def digit? (base : Nat) (c : Char) : Option Nat :=
  let value? :=
    if '0' ≤ c ∧ c ≤ '9' then some (c.toNat - '0'.toNat)
    else if 'a' ≤ c ∧ c ≤ 'z' then some (c.toNat - 'a'.toNat + 10)
    else if 'A' ≤ c ∧ c ≤ 'Z' then some (c.toNat - 'A'.toNat + 10)
    else none
  value?.filter (· < base)

/-- Reads digits after the value `acc`, keeping the value below `bound`. -/
def parseDigits (base bound : Nat) : Nat → List Char → Except NumeralError Nat
  | acc, [] => .ok acc
  | acc, c :: cs =>
    match digit? base c with
    | none => .error .invalidDigit
    | some d =>
      if acc * base + d < bound then parseDigits base bound (acc * base + d) cs
      else .error .tooLarge

/-- Reads an optional `+` and digits of the base, with a value below `bound`. -/
def parseChars (base bound : Nat) : List Char → Except NumeralError Nat
  | [] => .error .empty
  | ['+'] => .error .invalidDigit
  | '+' :: cs => parseDigits base bound 0 cs
  | cs => parseDigits base bound 0 cs

/-- Reads a numeral of one base. -/
def parse (base bound : Nat) (text : String) : Except NumeralError Nat :=
  parseChars base bound text.toList

/-- Reads a hexadecimal numeral behind `0x` or `0X`, and a decimal one otherwise. -/
def parseMarked (bound : Nat) (text : String) : Except NumeralError Nat :=
  match text.toList with
  | '0' :: 'x' :: cs => parseChars 16 bound cs
  | '0' :: 'X' :: cs => parseChars 16 bound cs
  | cs => parseChars 10 bound cs

/-- Reads bytes of two hexadecimal digits each, up to the first that is none. -/
def readBytes : List Char → List UInt8
  | high :: low :: rest =>
    match digit? 16 high, digit? 16 low with
    | some h, some l => UInt8.ofNat (16 * h + l) :: readBytes rest
    | _, _ => []
  | _ => []

end Numeral

end BranchTrace.Text
