import BranchTrace.Text.Hex
import BranchTrace.Text.Unprintable

/-!
# Quoted text

How paths stand in messages: between double quotes, with a backslash in front of double quotes
and backslashes, the usual letters for the common controls, and `\u{…}` with the code point in
hexadecimal for any other character without a shape of its own.
-/

namespace BranchTrace.Text

/-- The characters that stand for one character inside the quotes. -/
def escape (c : Char) : List Char :=
  if c = '\x00' then ['\\', '0']
  else if c = '\t' then ['\\', 't']
  else if c = '\r' then ['\\', 'r']
  else if c = '\n' then ['\\', 'n']
  else if c = '"' ∨ c = '\\' then ['\\', c]
  else if isUnprintable c then
    ['\\', 'u', '\x7b'] ++ Nat.toDigits 16 c.toNat ++ ['\x7d']
  else [c]

/-- A text between double quotes. -/
def quoted (text : String) : String :=
  String.ofList ('"' :: text.toList.flatMap escape ++ ['"'])

end BranchTrace.Text
