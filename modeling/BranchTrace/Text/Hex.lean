/-!
# Hexadecimal and padded numbers

Numbers as they stand in dumps, messages and register listings: `hexDigits` is the bare
lower-case digits, `hex` puts `0x` in front, and `padded` is a decimal number pushed to the
right of a field. Zero is written `0`, and no other number has a leading zero. Bytes in a row
(`hexBytes`) have two digits each.
-/

namespace BranchTrace.Text

/-- The lower-case hexadecimal digits of a number, without a marker. -/
def hexDigits (n : Nat) : String :=
  String.ofList (Nat.toDigits 16 n)

/-- A number in hexadecimal behind `0x`. -/
def hex (n : Nat) : String :=
  "0x" ++ hexDigits n

/-- A decimal number in a field of at least `width` characters, filled with blanks on the left. -/
def padded (width n : Nat) : String :=
  let digits := Nat.toDigits 10 n
  String.ofList (List.replicate (width - digits.length) ' ' ++ digits)

/-- A byte as two digits. -/
def hexByte (b : UInt8) : List Char :=
  let digits := Nat.toDigits 16 b.toNat
  List.replicate (2 - digits.length) '0' ++ digits

/-- Bytes as two digits each. -/
def hexBytes (bytes : List UInt8) : String :=
  String.ofList (bytes.flatMap hexByte)

theorem hex_toList (n : Nat) : (hex n).toList = '0' :: 'x' :: Nat.toDigits 16 n := by
  simp [hex, hexDigits, String.toList_append]

end BranchTrace.Text
