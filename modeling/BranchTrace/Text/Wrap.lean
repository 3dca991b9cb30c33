import BranchTrace.Text.FileStem

/-!
# Wrapped text

Breaking a text into lines at its blanks. A line takes words as long as they fit its width; a word
that is wider than that has a line of its own.
-/

namespace BranchTrace.Text

/-- Puts words onto the line begun with `line`, and onto new lines where one does not fit. -/
def fill (width : Nat) : List Char → List (List Char) → List (List Char)
  | line, [] => [line]
  | line, word :: words =>
    if line.length + 1 + word.length ≤ width then fill width (line ++ ' ' :: word) words
    else line :: fill width word words

/-- The lines of a text. -/
def wrap (width : Nat) (text : String) : List String :=
  match splitAll ' ' text.toList with
  | [] => []
  | word :: words => (fill width word words).map String.ofList

end BranchTrace.Text
