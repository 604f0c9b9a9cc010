import Chip8.Machine.Basic
import Chip8.Session.Basic
import Chip8.Yaml.Document

/-!
# Configurations

The dialect and the seed of a machine, as they are read from a configuration document. The document
is a mapping with the entries `quirks`, the choices of the dialect by name, and `seed`, an integer or
the text of one; both may be missing. Other entries are passed over.

## Main definitions

* `Config` — dialect and seed
* `ConfigError` — why a value is no configuration
* `Config.ofValue`, `Config.ofText` — the configuration of a value and of a YAML text
* `Config.machine`, `Config.session` — the machine of a configuration
-/

namespace Chip8

/-- The configuration of a machine. -/
structure Config where
  dialect : Dialect
  seed : Option Int
  deriving DecidableEq, Repr

/-- A choice of a dialect. -/
inductive Choice where
  | shiftUsesVy
  | keyWaitOnRelease
  | loadStoreIncrementsIndex
  deriving DecidableEq, Repr

namespace Choice

/-- The name of a choice in a configuration. -/
def name : Choice → String
  | .shiftUsesVy => "shift_uses_vy"
  | .keyWaitOnRelease => "key_wait_on_release"
  | .loadStoreIncrementsIndex => "load_store_increments_index"

/-- All choices. -/
def all : List Choice := [.shiftUsesVy, .keyWaitOnRelease, .loadStoreIncrementsIndex]

/-- The choice that a key names. -/
def ofKey? (key : Value) : Option Choice := all.find? fun c => key.sameKey (.text c.name)

/-- A dialect with a choice made. -/
def set (c : Choice) (d : Dialect) (on : Bool) : Dialect :=
  match c with
  | .shiftUsesVy => { d with shiftUsesVy := on }
  | .keyWaitOnRelease => { d with keyWaitOnRelease := on }
  | .loadStoreIncrementsIndex => { d with loadStoreIncrementsIndex := on }

end Choice

/-- Why a value is no configuration. -/
inductive ConfigError where
  | rootNotMapping (typeName : String)
  | choicesNotMapping
  /-- Names that are no choices, in increasing order. -/
  | unknownChoices (names : List String)
  /-- A key that is neither a choice nor a text, so that it cannot be named. -/
  | unnameableChoice
  | notBoolean (choice : Choice) (value : Value)
  | notInteger (value : Value)
  | badInteger (base : Nat) (text : List Char) (reason : IntLiteral.Error)

namespace ConfigError

/-- A text followed by a value; if the value has no text, the message for that. -/
def withValue (text : String) (value : Value) : String :=
  match value.shown? with
  | some shown => text ++ shown
  | none =>
    "Exceeds the limit (" ++ Numeral.decimal Value.maxDigits ++
      " digits) for integer string conversion; use sys.set_int_max_str_digits() to increase the limit"

/-- The message of an error; a key that cannot be named gives none. -/
def message? : ConfigError → Option String
  | .rootNotMapping typeName => some ("Config root must be a mapping, got " ++ typeName)
  | .choicesNotMapping => some "'quirks' must be a mapping"
  | .unknownChoices names => some ("Unknown quirk(s): " ++ String.intercalate ", " names)
  | .unnameableChoice => none
  | .notBoolean choice value =>
    some (withValue ("Quirk '" ++ choice.name ++ "' must be a boolean: ") value)
  | .notInteger value => some (withValue "Invalid integer format: " value)
  | .badInteger base text reason => some (reason.message base text)

end ConfigError

namespace Config

/-! ### Choices -/

/-- The keys of a mapping that are no choices. -/
def unknownKeys (entries : List (Value × Value)) : List Value :=
  (entries.map (·.1)).filter fun key => (Choice.ofKey? key).isNone

/-- The texts of a list of keys, if all of them are texts. -/
def keyNames? : List Value → Option (List String)
  | [] => some []
  | .text s :: rest => (keyNames? rest).map (s :: ·)
  | _ :: _ => none

/-- The dialect of the entries of a mapping whose keys are choices. -/
def choose (d : Dialect) : List (Value × Value) → Except ConfigError Dialect
  | [] => .ok d
  | (key, value) :: rest =>
    match Choice.ofKey? key, value with
    | some c, .bool on => choose (c.set d on) rest
    | some c, _ => .error (.notBoolean c value)
    | none, _ => choose d rest

/-- The dialect of the entries of a mapping. Keys that are no choices are reported before values
that are no truth values. -/
def dialectOfEntries (entries : List (Value × Value)) : Except ConfigError Dialect :=
  match unknownKeys entries with
  | [] => choose {} entries
  | unknown =>
    match keyNames? unknown with
    | some names => .error (.unknownChoices (names.mergeSort fun a b => a ≤ b))
    | none => .error .unnameableChoice

/-- The dialect of a value. A value that counts as nothing gives the usual dialect. -/
def dialectOfValue (v : Value) : Except ConfigError Dialect :=
  if v.isVoid then .ok {}
  else
    match v with
    | .mapping entries => dialectOfEntries entries
    | _ => .error .choicesNotMapping

/-! ### Seeds -/

/-- The base in which a text is read: sixteen if it begins with `0x`, otherwise ten. -/
def seedBase : List Char → Nat
  | '0' :: 'x' :: _ => 16
  | _ => 10

/-- The seed of a value. -/
def seedOfValue : Value → Except ConfigError (Option Int)
  | .null => .ok none
  | .int n => .ok (some n)
  | .text s =>
    match IntLiteral.read (seedBase s.toList) s.toList with
    | .ok n => .ok (some n)
    | .error reason => .error (.badInteger (seedBase s.toList) s.toList reason)
  | v => .error (.notInteger v)

/-! ### Documents -/

/-- The configuration of a value. The choices are checked before the seed. -/
def ofValue : Value → Except ConfigError Config
  | .null => .ok ⟨{}, none⟩
  | .mapping entries => do
    let dialect ← dialectOfValue ((Value.find? "quirks" entries).getD .null)
    let seed ← seedOfValue ((Value.find? "seed" entries).getD .null)
    .ok ⟨dialect, seed⟩
  | v => .error (.rootNotMapping v.typeName)

/-- Why a text is no configuration. -/
inductive TextError where
  | document (reason : Yaml.Error)
  | config (reason : ConfigError)
  | file (reason : FileError)

/-- The message of an error, if it has one. -/
def TextError.message? : TextError → Option String
  | .document reason => reason.message?
  | .config reason => reason.message?
  | .file _ => none

/-- The configuration of a YAML text. -/
def ofText (text : String) : Except TextError Config := do
  let value ← (Yaml.read text).mapError .document
  (ofValue value).mapError .config

/-- The configuration of the contents of a file, which may not be there. -/
def ofFile : Option String → Except TextError Config
  | some text => ofText text
  | none => .error (.file .notFound)

/-! ### Machines -/

/-- The machine of a configuration. -/
def machine (c : Config) : Machine := .create c.dialect c.seed

/-- A session of the machine of a configuration. -/
def session (c : Config) : Session := .ofMachine c.machine

end Config

end Chip8
