import BranchTrace.Machine.Basic

/-!
# Opening the register nodes

The operating system shows the registers of each cpu as a file, the node `<root>/<cpu>/msr`.
`NodeBank.openAll` opens the nodes of all configured cpus. A node that does not open is reported
and left out, and its cpu keeps its place in the bank; if no node opens at all, the failure of
the lowest cpu is the failure of the whole.
-/

namespace BranchTrace

/-- A path with one more name: with a slash between them unless the path ends in one or is empty. -/
def joinPath (path name : String) : String :=
  if path.isEmpty ∨ path.toList.getLast? = some '/' then path ++ name else path ++ "/" ++ name

namespace NodeBank

/-- The path of the node of a cpu. -/
def nodePath (root : String) (cpu : Nat) : String :=
  joinPath (joinPath root (toString cpu)) "msr"

/-- Opens the nodes of the given cpus, reporting those that do not open. -/
def openNodes (root : String) : List Nat → StateM Machine (List (Except SystemError Place))
  | [] => pure []
  | cpu :: rest => do
    let path := nodePath root cpu
    let opened := (← get).files.openAt path .readWrite
    match opened with
    | .ok _ => pure ()
    | .error e => report (.nodeFailed path e)
    return opened :: (← openNodes root rest)

/-- The first failure among outcomes. -/
def firstError {α : Type} : List (Except SystemError α) → Option SystemError
  | [] => none
  | .ok _ :: rest => firstError rest
  | .error e :: _ => some e

/-- Opens the nodes of all configured cpus. -/
def openAll (root : String) : Action Machine SystemError NodeBank := do
  let cpus ← Machine.nproc
  let opened ← (openNodes root (List.range cpus) : StateM Machine _)
  let nodes := opened.map Except.toOption
  if nodes.any Option.isSome then return { nodes }
  else throw ((firstError opened).getD (.os Errno.enodev))

end NodeBank

end BranchTrace
