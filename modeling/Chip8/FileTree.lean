import Chip8.Bytes

/-!
# File trees

A tree of directories and files without links. Beside regular files there are pipes and devices,
from which bytes can be read as from a file but which keep nothing, and there are entries that may
not be opened. Directories may always be listed and searched.

Paths are texts whose parts are separated by slashes; they are resolved from the root of the tree
part by part. An empty part and `.` stay where they are, `..` goes to the parent directory, and the
root is its own parent. A name has at most `maxNameBytes` bytes and a path at most `maxPathBytes`.
The empty text is no path.

A path that is written to names a file by its last part. If it ends with a slash it cannot be
written to, whatever stands there.

## Main definitions

* `FileTree` — a file, something else that may be opened or not, or a directory
* `FileTree.opened` — what opening and reading it gives
* `FileTree.resolve` — the place of a path in a tree
* `FileTree.read`, `FileTree.write` — the contents of a file
* `FileTree.makeDirectories`, `FileTree.create` — directories, and files together with theirs
* `FileTree.isDirectory`, `FileTree.isFile` — what a path leads to
* `FileTree.names` — the entries of a directory
-/

namespace Chip8

/-- A file or a directory of named entries. -/
inductive FileTree where
  /-- A regular file. -/
  | file (contents : Bytes)
  /-- A pipe or a device: no regular file, but reading it gives bytes. What is written to it is not
  kept. -/
  | device (output : Bytes)
  /-- What may not be opened, and whether it is a regular file. -/
  | locked (regular : Bool)
  | directory (entries : List (String × FileTree))
  deriving Inhabited

namespace FileTree

/-- The directory without entries. -/
def empty : FileTree := .directory []

/-! ### Places

A place is the list of the names that lead to it from the root. -/

/-- The entry of a name. -/
def child? : FileTree → String → Option FileTree
  | .file _, _ | .device _, _ | .locked _, _ => none
  | .directory entries, name => (entries.find? fun e => e.1 = name).map (·.2)

/-- What stands at a place. -/
def get? (t : FileTree) : List String → Option FileTree
  | [] => some t
  | name :: rest => (t.child? name).bind fun child => child.get? rest

/-- The entries with one of them replaced or added at the end. -/
def putEntry (name : String) (value : FileTree) : List (String × FileTree) →
    List (String × FileTree)
  | [] => [(name, value)]
  | (n, v) :: rest => if n = name then (n, value) :: rest else (n, v) :: putEntry name value rest

/-- The tree with something put at a place. Directories on the way are made, and whatever else is on
the way gives way to one. -/
def put (t : FileTree) (value : FileTree) : List String → FileTree
  | [] => value
  | name :: rest =>
    let entries := match t with
      | .directory entries => entries
      | .file _ | .device _ | .locked _ => []
    .directory (putEntry name (((t.child? name).getD empty).put value rest) entries)

/-! ### Paths -/

/-- The parts of a text between separators; there is one part more than there are separators. -/
def splitAt (separator : Char) : List Char → List (List Char)
  | [] => [[]]
  | c :: rest =>
    if c = separator then [] :: splitAt separator rest
    else
      match splitAt separator rest with
      | [] => [[c]]
      | part :: parts => (c :: part) :: parts

/-- The parts of a path. -/
def parts (path : String) : List String := (splitAt '/' path.toList).map String.ofList

/-- The last part of a path. -/
def baseName (path : String) : String := (parts path).getLast?.getD ""

/-- The path of a name in a directory. A name that begins with a slash is a path of its own. -/
def join (directory name : String) : String :=
  if name.toList.head? = some '/' then name
  else if directory.isEmpty || directory.toList.getLast? = some '/' then directory ++ name
  else directory ++ "/" ++ name

/-- The greatest number of bytes of a name. -/
abbrev maxNameBytes : Nat := 255

/-- The greatest number of bytes of a path. -/
abbrev maxPathBytes : Nat := 4095

/-- Whether a name is too long. -/
def isTooLong (name : String) : Bool := maxNameBytes < name.utf8ByteSize

/-- Refuses a text that is no path. -/
def checkPath (path : String) : Except FileError Unit :=
  if path.toList.contains '\x00' then .error .nullCharacter
  else if path.isEmpty then .error .notFound
  else if maxPathBytes < path.utf8ByteSize then .error .nameTooLong
  else .ok ()

/-- The place that parts of a path lead to from a place. -/
def resolveFrom (t : FileTree) (place : List String) : List String → Except FileError (List String)
  | [] => .ok place
  | part :: rest =>
    match t.get? place with
    | some (.directory _) =>
      if part = "" ∨ part = "." then t.resolveFrom place rest
      else if part = ".." then t.resolveFrom place.dropLast rest
      else if isTooLong part then .error .nameTooLong
      else if (t.get? (place ++ [part])).isSome then t.resolveFrom (place ++ [part]) rest
      else .error .notFound
    | some _ => .error .notDirectory
    | none => .error .notFound

/-- The place of a path. -/
def resolve (t : FileTree) (path : String) : Except FileError (List String) := do
  checkPath path
  t.resolveFrom [] (parts path)

/-! ### Files and directories -/

/-- The bytes that opening and reading something gives. -/
def opened : FileTree → Except FileError Bytes
  | .file contents => .ok contents
  | .device output => .ok output
  | .locked _ => .error .notPermitted
  | .directory _ => .error .isDirectory

/-- Whether something is a regular file, whether it may be opened or not. -/
def isRegular : FileTree → Bool
  | .file _ => true
  | .locked regular => regular
  | .device _ | .directory _ => false

/-- The bytes that are read from a path. -/
def read (t : FileTree) (path : String) : Except FileError Bytes := do
  let place ← t.resolve path
  match t.get? place with
  | some found => found.opened
  | none => .error .notFound

/-- The parts of a path in front of its last name, and that name. -/
def splitLast (path : String) : List String × String :=
  let names := (parts path).reverse.dropWhile (· = "")
  ((names.drop 1).reverse, names.headD "")

/-- The place of the file that is written when a path is: an entry of a directory at which a file
stands that may be opened, or nothing. -/
def writePlace (t : FileTree) (path : String) : Except FileError (List String) := do
  checkPath path
  let (way, name) := splitLast path
  let directory ← t.resolveFrom [] way
  match t.get? directory with
  | some (.directory _) =>
    if name = "." ∨ name = ".." ∨ baseName path = "" then .error .isDirectory
    else if isTooLong name then .error .nameTooLong
    else
      match t.get? (directory ++ [name]) with
      | some (.directory _) => .error .isDirectory
      | some (.device _) | some (.locked _) => .error .notPermitted
      | some (.file _) | none => .ok (directory ++ [name])
  | some _ => .error .notDirectory
  | none => .error .notFound

/-- Whether a path leads to a pipe or a device. -/
def isDevice (t : FileTree) (path : String) : Bool :=
  match t.resolve path with
  | .ok place =>
    match t.get? place with
    | some (.device _) => true
    | _ => false
  | .error _ => false

/-- The tree with the contents of a file written. The directory of the file must be there. A pipe or
a device takes what is written and stays as it is. -/
def write (t : FileTree) (path : String) (contents : Bytes) : Except FileError FileTree :=
  if t.isDevice path then .ok t else (t.writePlace path).map (t.put (.file contents))

/-- The tree in which the directories of a way from a place are there, and the place at its end.
What was made before a fault stays. -/
def makeWay (t : FileTree) (place : List String) :
    List String → FileTree × Except FileError (List String)
  | [] => (t, .ok place)
  | part :: rest =>
    match t.get? place with
    | some (.directory _) =>
      if part = "" ∨ part = "." then t.makeWay place rest
      else if part = ".." then t.makeWay place.dropLast rest
      else if isTooLong part then (t, .error .nameTooLong)
      else
        let next := place ++ [part]
        (if (t.get? next).isSome then t else t.put empty next).makeWay next rest
    | some _ => (t, .error .notDirectory)
    | none => (t, .error .notFound)

/-- The tree in which the directories of a list of parts are there. -/
def makeAll (t : FileTree) (way : List String) : FileTree × Except FileError Unit :=
  match t.makeWay [] (way.filter (· ≠ "")) with
  | (made, .ok place) =>
    match made.get? place with
    | some (.directory _) => (made, .ok ())
    | _ => (made, .error .alreadyExists)
  | (made, .error reason) => (made, .error reason)

/-- The tree in which the directories of a path are there. -/
def makeDirectories (t : FileTree) (path : String) : FileTree × Except FileError Unit :=
  match checkPath path with
  | .ok () => t.makeAll (parts path)
  | .error reason => (t, .error reason)

/-- The tree with a file written, after the directories of its path were made. They stay even if the
file cannot be written. -/
def create (t : FileTree) (path : String) (contents : Bytes) : FileTree × Except FileError Unit :=
  match t.makeAll (parts path).dropLast with
  | (made, .ok ()) =>
    match made.write path contents with
    | .ok written => (written, .ok ())
    | .error reason => (made, .error reason)
  | (made, .error reason) => (made, .error reason)

/-- Whether a path leads to a directory. -/
def isDirectory (t : FileTree) (path : String) : Bool :=
  match t.resolve path with
  | .ok place =>
    match t.get? place with
    | some (.directory _) => true
    | _ => false
  | .error _ => false

/-- Whether a path leads to a regular file. -/
def isFile (t : FileTree) (path : String) : Bool :=
  match t.resolve path with
  | .ok place => (t.get? place).any isRegular
  | .error _ => false

/-- The names of the entries of a directory. -/
def names (t : FileTree) (path : String) : List String :=
  match t.resolve path with
  | .ok place =>
    match t.get? place with
    | some (.directory entries) => entries.map (·.1)
    | _ => []
  | .error _ => []

end FileTree

end Chip8
