import Chip8.Text.Quoted

/-!
# Errors

Why an operation of the machine, of a session or of the ROM directory is refused. Each cause is a
constructor, and the wording stands in the `message` functions. Failures of the file system, indices
that denote no place, memories that are too large and fields that do not fit a snapshot have no text
of their own.

## Main definitions

* `SnapshotError` — why bytes are no snapshot
* `FileError` — why a path cannot be read or written
* `Error` — all causes together
-/

namespace Chip8

/-- The fixed part of a snapshot in bytes: all fields but the breakpoints. -/
abbrev snapshotFixedSize : Nat := 6226

/-- Why a value is not a snapshot. -/
inductive SnapshotError where
  /-- The value is no byte string but of the named type. -/
  | notBytes (typeName : String)
  | shortHeader (length : Nat)
  | badMagic (found : List UInt8)
  | badVersion (found : Nat)
  | truncated (length : Nat)
  | lengthMismatch (length expected count : Nat)
  | stackPointer (found : Nat)
  /-- Bytes of the screen that are neither 0 nor 1. -/
  | pixelValues (found : List Nat)
  /-- Bytes of the keys that are neither 0 nor 1. -/
  | keyValues (found : List Nat)
  | unknownFlags (found : Nat)
  | latchNotKey (found : Nat)
  | latchWithoutRelease
  /-- A key is latched, and the word at `pc` does not wait for a key. -/
  | latchNotWaiting (word pc : Nat)
  | changedFlag (found : Nat)
  | runningFlag (found : Nat)
  deriving DecidableEq, Repr

namespace SnapshotError

/-- Numbers in brackets, separated by commas. -/
def numberList (ns : List Nat) : String :=
  "[" ++ String.intercalate ", " (ns.map Numeral.decimal) ++ "]"

/-- The message of an error. -/
def message : SnapshotError → String
  | .notBytes typeName => "Snapshot must be bytes, got " ++ typeName
  | .shortHeader length =>
    "Snapshot too short for header: " ++ Numeral.decimal length ++ " bytes"
  | .badMagic found => "Bad snapshot magic " ++ Quoted.bytes found ++ ", expected b'C8ST'"
  | .badVersion found =>
    "Unsupported snapshot version " ++ Numeral.decimal found ++ ", expected 1"
  | .truncated length =>
    "Snapshot truncated: " ++ Numeral.decimal length ++ " bytes, need at least " ++
      Numeral.decimal snapshotFixedSize
  | .lengthMismatch length expected count =>
    "Snapshot length " ++ Numeral.decimal length ++ " does not match expected " ++
      Numeral.decimal expected ++ " for " ++ Numeral.decimal count ++ " breakpoint(s)"
  | .stackPointer found =>
    "Stack pointer " ++ Numeral.decimal found ++ " exceeds stack depth 16"
  | .pixelValues found =>
    "framebuffer must contain only 0/1 values, found " ++ numberList found
  | .keyValues found => "keys must contain only 0/1 values, found " ++ numberList found
  | .unknownFlags found => "Unknown quirk flags 0x" ++ Numeral.hex 2 found
  | .latchNotKey found => "Key-wait latch " ++ Numeral.decimal found ++ " is not a valid key"
  | .latchWithoutRelease => "Key-wait latch is set but the on-release quirk is off"
  | .latchNotWaiting word pc =>
    "Key-wait latch is set but opcode 0x" ++ Numeral.hex 4 word ++ " at PC 0x" ++
      Numeral.hex 4 pc ++ " is not Fx0A"
  | .changedFlag found => "changed flag must be 0 or 1, got " ++ Numeral.decimal found
  | .runningFlag found => "running flag must be 0 or 1, got " ++ Numeral.decimal found

end SnapshotError

/-- Why a path cannot be read or written, or its directories cannot be made. -/
inductive FileError where
  | notFound
  | isDirectory
  | notDirectory
  /-- A directory cannot be made, since a file has its name. -/
  | alreadyExists
  | nameTooLong
  /-- What the path leads to may not be opened. -/
  | notPermitted
  /-- A name holds the character of code zero. -/
  | nullCharacter
  deriving DecidableEq, Repr

/-- Why an operation is refused. -/
inductive Error where
  /-- The size of a memory is no positive integer. -/
  | memorySize
  /-- An index denotes no place: a slot of the stack or a key. -/
  | outOfRange
  /-- The size of a memory is beyond the numbers that can count cells. -/
  | memoryUncountable
  /-- There is no room for a memory of the given size. -/
  | memoryExhausted
  /-- A screen is restored from this number of pixels. -/
  | pixelCount (given : Nat)
  /-- A keypad is restored from this number of keys. -/
  | keyCount (given : Nat)
  /-- A byte string is made of a number below 0 or above 255. -/
  | notByte
  | romTooLarge (size capacity : Nat)
  /-- There is no ROM to start again. -/
  | noRom
  /-- The name of a ROM holds a path. -/
  | romName (name : String)
  /-- A field is too large for its place in a snapshot. -/
  | fieldOverflow
  | snapshot (reason : SnapshotError)
  | file (reason : FileError)
  deriving DecidableEq, Repr

namespace Error

/-- The message of an error; failures that have no text of their own give none. -/
def message? : Error → Option String
  | .memorySize => some "Memory size must be a positive integer."
  | .outOfRange => none
  | .memoryUncountable => none
  | .memoryExhausted => none
  | .pixelCount given =>
    some ("Framebuffer expects 2048 pixels, got " ++ Numeral.decimal given ++ ".")
  | .keyCount given => some ("Keypad expects 16 key states, got " ++ Numeral.decimal given ++ ".")
  | .notByte => some "bytes must be in range(0, 256)"
  | .romTooLarge size capacity =>
    some ("ROM size " ++ Numeral.decimal size ++ " exceeds available memory " ++
      Numeral.decimal capacity)
  | .noRom => some "no ROM loaded to soft reset"
  | .romName name => some ("ROM name must not contain a path: " ++ name)
  | .fieldOverflow => none
  | .snapshot reason => some reason.message
  | .file .nullCharacter => some "embedded null byte"
  | .file _ => none

end Error

end Chip8
