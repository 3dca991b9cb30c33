/-!
# File stems

`fileStem` is the last component of a path without its extension. Empty components and `.` count
for nothing, except that a path made of them alone has no last component; `..` has no stem. The
extension starts at the last dot of the component, and a dot that opens the component starts none.
-/

namespace BranchTrace.Text

/-- Splits at every occurrence of one character; there is always at least one piece. -/
def splitAll (sep : Char) : List Char → List (List Char)
  | [] => [[]]
  | c :: cs =>
    if c = sep then [] :: splitAll sep cs
    else
      match splitAll sep cs with
      | [] => [[c]]
      | piece :: rest => (c :: piece) :: rest

/-- Drops the extension of one path component. -/
def dropExtension (component : List Char) : List Char :=
  match component.reverse.span (· ≠ '.') with
  | (_, []) => component
  | (_, [_]) => component
  | (_, _ :: stem) => stem.reverse

/-- The stem of the last component of a path; empty if there is none. -/
def fileStem (path : String) : String :=
  let components := (splitAll '/' path.toList).filter fun piece => piece ≠ [] ∧ piece ≠ ['.']
  match components.getLast? with
  | none => ""
  | some component =>
    if component = ['.', '.'] then "" else String.ofList (dropExtension component)

theorem splitAll_ne_nil (sep : Char) (cs : List Char) : splitAll sep cs ≠ [] := by
  cases cs with
  | nil => simp [splitAll]
  | cons c cs =>
    rw [splitAll]
    split
    · simp
    · split <;> simp

end BranchTrace.Text
