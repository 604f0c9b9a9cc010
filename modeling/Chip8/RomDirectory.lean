import Chip8.FileTree

/-!
# ROM directories

A directory of program files. It lists the files whose names end like those of programs, and loads a
file by its name; a name that holds a path is refused before anything is read.

## Main definitions

* `RomDirectory.list` — the names of the programs, in increasing order
* `RomDirectory.load` — a file of the directory
-/

namespace Chip8

/-- A directory of programs by its path. -/
structure RomDirectory where
  path : String
  deriving DecidableEq, Repr

namespace RomDirectory

/-- A letter in lower case; other characters stay. -/
def lowerLetter (c : Char) : Char :=
  if 'A' ≤ c ∧ c ≤ 'Z' then Char.ofNat (c.toNat + 32) else c

/-- Whether a name ends like that of a program, in letters of either case. -/
def isRomName (name : String) : Bool :=
  let cs := name.toList.map lowerLetter
  ".ch8".toList.isSuffixOf cs || ".c8".toList.isSuffixOf cs

/-- The names of the programs in the directory in increasing order; none if it is no directory. An
entry that its path does not reach, as the path is too long, is passed over. -/
def list (d : RomDirectory) (t : FileTree) : List String :=
  ((t.names d.path).filter fun name =>
    t.isFile (FileTree.join d.path name) && isRomName name).mergeSort fun a b => a ≤ b

/-- The contents of a file of the directory. -/
def load (d : RomDirectory) (t : FileTree) (name : String) : Except Error Bytes :=
  if FileTree.baseName name ≠ name then .error (.romName name)
  else (t.read (FileTree.join d.path name)).mapError .file

end RomDirectory

end Chip8
