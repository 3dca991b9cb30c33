import BranchTrace.Failure.SystemError
import BranchTrace.Machine.ByteFile
import BranchTrace.Text.FileStem

/-!
# File trees

The files a machine can open, each under the list of names that leads to it from the root. Besides
directories and byte files there are the two bottomless devices, one always empty and one always
full, and symbolic links. `FileTree.resolve` follows a path to the place it names, and
`FileTree.openAt` also asks whether that place can be opened as wanted.
-/

namespace BranchTrace

/-- The names that lead from the root to a place. -/
abbrev Place := List String

/-- What stands at a place. -/
inductive Node where
  | directory
  | bytes (file : ByteFile)
  /-- Reads nothing and takes every byte. -/
  | null
  /-- Reads zeros and takes no byte. -/
  | full
  /-- Stands for another path, taken from its own directory. -/
  | link (target : List String)

/-- How a file is to be opened. -/
inductive OpenMode where
  | read
  | write
  | readWrite
  | directory
  deriving DecidableEq, Repr

/-- The places of a machine, later entries hiding earlier ones. -/
structure FileTree where
  entries : List (Place × Node)

namespace FileTree

/-- The root, the directory of devices, and the two bottomless devices in it. -/
def base : FileTree :=
  { entries :=
      [ ([], .directory), (["dev"], .directory), (["dev", "null"], .null),
        (["dev", "full"], .full) ] }

/-- What stands at a place. -/
def node? (tree : FileTree) (place : Place) : Option Node :=
  tree.entries.lookup place

/-- Puts a node at a place. -/
def insert (tree : FileTree) (place : Place) (node : Node) : FileTree :=
  { entries := (place, node) :: tree.entries }

/-- The links that one path may go through. -/
def maxLinks : Nat := 40

/-- The most bytes of one name. -/
def maxName : Nat := 255

/-- The bytes a path has to stay below. -/
def maxPath : Nat := 4096

/-- Follows names from a place. Every name has to be looked up in a directory; an empty name and
`.` stay there, `..` goes to the directory above, and links are followed `links` times at most. -/
def walk (tree : FileTree) (links : Nat) (place : Place) : List String → Except Int32 Place
  | [] => .ok place
  | name :: rest =>
    match tree.node? place with
    | some .directory =>
      if name = "" ∨ name = "." then walk tree links place rest
      else if name = ".." then walk tree links place.dropLast rest
      else if maxName < name.utf8ByteSize then .error Errno.enametoolong
      else
        match tree.node? (place ++ [name]) with
        | none => .error Errno.enoent
        | some (.link target) =>
          if _h : links = 0 then .error Errno.eloop
          else walk tree (links - 1) place (target ++ rest)
        | some _ => walk tree links (place ++ [name]) rest
    | _ => .error Errno.enotdir
  termination_by names => (links, names.length)

/-- The names of a path. -/
def names (path : String) : List String :=
  (Text.splitAll '/' path.toList).map String.ofList

/-- The place a path names. -/
def resolve (tree : FileTree) (path : String) : Except Int32 Place :=
  if path = "" then .error Errno.enoent else walk tree maxLinks [] (names path)

/-- Whether what stands at a place can be opened. -/
def admits (mode : OpenMode) : Node → Except Int32 Unit
  | .directory => if mode = .write ∨ mode = .readWrite then .error Errno.eisdir else .ok ()
  | _ => if mode = .directory then .error Errno.enotdir else .ok ()

/-- Opens a path. A path that is too long or holds a zero byte never reaches the system. -/
def openAt (tree : FileTree) (path : String) (mode : OpenMode) : Except SystemError Place := do
  if maxPath ≤ path.utf8ByteSize ∨ path.toList.contains '\x00' then
    throw (.ofCall .invalidPath)
  let place ← (tree.resolve path).mapError fun errno => .ofCall (.errno errno)
  match tree.node? place with
  | none => throw (.ofCall (.errno Errno.enoent))
  | some node =>
    (admits mode node).mapError fun errno => .ofCall (.errno errno)
    return place

/-- The place where a path is opened for writing, and created for that if only its last name is
missing. -/
def writePlace? (tree : FileTree) (path : String) : Option Place :=
  if maxPath ≤ path.utf8ByteSize then none
  else
    match tree.resolve path with
    | .ok place =>
      match tree.node? place with
      | some .directory | none => none
      | some _ => some place
    | .error errno =>
      match (names path).reverse with
      | [] => none
      | name :: above =>
        match walk tree maxLinks [] above.reverse with
        | .error _ => none
        | .ok parent =>
          let place := parent ++ [name]
          if errno = Errno.enoent ∧ name ∉ ["", ".", ".."] ∧ (tree.node? place).isNone then
            match tree.node? parent with
            | some .directory => some place
            | _ => none
          else none

/-- Makes a place a directory, and the places between it and `above`. -/
def makeDirectories (tree : FileTree) (above : Place) : Place → FileTree
  | [] => tree
  | name :: rest =>
    let place := above ++ [name]
    let tree := if (tree.node? place).isSome then tree else tree.insert place .directory
    makeDirectories tree place rest

/-- Puts a file at a place, in directories that are made for it. -/
def plant (tree : FileTree) (place : Place) (file : ByteFile) : FileTree :=
  (tree.makeDirectories [] place.dropLast).insert place (.bytes file)

/-- Reads at most `count` bytes at an offset of an open file. -/
def readAt (tree : FileTree) (place : Place) (offset count : Nat) : Except Int32 (List UInt8) :=
  match tree.node? place with
  | some (.bytes file) => .ok (file.read offset count)
  | some .full => .ok (List.replicate count 0)
  | some .null => .ok []
  | some .directory => .error Errno.eisdir
  | _ => .error Errno.eio

/-- Writes bytes at an offset of an open file: how many were taken, and the tree after it. -/
def writeAt (tree : FileTree) (place : Place) (offset : Nat) (bytes : List UInt8) :
    Except Int32 (Nat × FileTree) :=
  match tree.node? place with
  | some (.bytes file) => .ok (bytes.length, tree.insert place (.bytes (file.write offset bytes)))
  | some .null => .ok (bytes.length, tree)
  | some .full => .error Errno.enospc
  | _ => .error Errno.eio

end FileTree

end BranchTrace
