import Chip8.Document.Calendar
import Chip8.Text.Quoted
import Chip8.Text.ShortestDecimal

/-!
# Document values

The values that a configuration document can hold. A mapping is a list of entries in the order in
which their keys were first given, without two entries of the same key.

## Main definitions

* `Value` — null, truth values, numbers, texts, dates, lists and mappings
* `Value.typeName` — the name that messages give to the type of a value
* `Value.isVoid` — the values that count as "nothing given"
* `Value.sameKey`, `Value.ofEntries` — when two keys are one, and mappings by their entries
* `Value.shown?`, `Value.written?` — the text of a value, on its own and inside another

## Implementation notes

An integer of more than `IntLiteral.maxDigits` decimal digits has no text, and neither has a value
that holds one; hence the optional results.
-/

namespace Chip8

/-- A value of a document. -/
inductive Value where
  | null
  | bool (b : Bool)
  | int (n : Int)
  | float (x : Float)
  | text (s : String)
  | date (d : Date)
  | instant (t : Instant)
  | list (items : List Value)
  | mapping (entries : List (Value × Value))
  deriving Inhabited

namespace Value

/-- The name of a value's type. -/
def typeName : Value → String
  | .null => "NoneType"
  | .bool _ => "bool"
  | .int _ => "int"
  | .float _ => "float"
  | .text _ => "str"
  | .date _ => "date"
  | .instant _ => "datetime"
  | .list _ => "list"
  | .mapping _ => "dict"

/-- Whether a value counts as nothing: null, false, a zero, and an empty text, list or mapping. -/
def isVoid : Value → Bool
  | .null => true
  | .bool b => !b
  | .int n => n == 0
  | .float x => x == 0.0
  | .text s => s.isEmpty
  | .date _ => false
  | .instant _ => false
  | .list items => items.isEmpty
  | .mapping entries => entries.isEmpty

/-! ### Keys -/

/-- Whether a floating-point number is exactly a whole number. -/
def floatEqInt (x : Float) (n : Int) : Bool :=
  match Binary64.ofFloat x with
  | .finite negative m q =>
    let whole : Int := if negative then -(m : Int) else m
    whole * Nat.pow 2 q.toNat == n * Nat.pow 2 (-q).toNat
  | _ => false

/-- The number that a truth value or an integer stands for as a key. -/
def keyInt? : Value → Option Int
  | .bool b => some (if b then 1 else 0)
  | .int n => some n
  | _ => none

/-- Whether two values are the same key: equal numbers are, whatever their type, and what is not a
number is the same key as itself. -/
def sameKey (a b : Value) : Bool :=
  match a.keyInt?, b.keyInt? with
  | some m, some n => m == n
  | some m, none => match b with
    | .float y => floatEqInt y m
    | _ => false
  | none, some n => match a with
    | .float x => floatEqInt x n
    | _ => false
  | none, none => match a, b with
    | .null, .null => true
    | .float x, .float y => x == y || (x.isNaN && y.isNaN)
    | .text s, .text t => s == t
    | .date d, .date e => d == e
    | .instant t, .instant u => t.sameMoment u
    | _, _ => false

/-- Whether a value may be a key: all but lists and mappings. -/
def isKey : Value → Bool
  | .list _ => false
  | .mapping _ => false
  | _ => true

/-- Gives a key its value. A key that is already there keeps its place and its first spelling. -/
def insertEntry (key value : Value) : List (Value × Value) → List (Value × Value)
  | [] => [(key, value)]
  | (k, v) :: rest =>
    if k.sameKey key then (k, value) :: rest else (k, v) :: insertEntry key value rest

/-- The mapping of a list of entries, of which a later one replaces an earlier one of its key. -/
def ofEntries (entries : List (Value × Value)) : Value :=
  .mapping (entries.foldl (fun acc e => insertEntry e.1 e.2 acc) [])

/-- The value of a textual key. -/
def find? (key : String) (entries : List (Value × Value)) : Option Value :=
  (entries.find? fun e => e.1.sameKey (.text key)).map (·.2)

/-! ### Texts -/

/-- Numbers are positional when the point lies at most three places before the first digit and at
most sixteen after it; exponents have at least two digits. -/
def decimals : DecimalLayout := ⟨-3, 16, 2, "inf", "nan"⟩

/-- The greatest number of decimal digits of an integer that has a text. -/
def maxDigits : Nat := 4300

/-- The decimal text of an integer that is not too long. -/
def intText? (n : Int) : Option (List Char) :=
  if n.natAbs < Nat.pow 10 maxDigits then some (Numeral.decimalInt n).toList else none

mutual

/-- The text of a value inside a list or a mapping: texts are quoted. -/
def written? : Value → Option (List Char)
  | .null => some "None".toList
  | .bool b => some (if b then "True".toList else "False".toList)
  | .int n => intText? n
  | .float x => some (decimals.render (.ofFloat x)).toList
  | .text s => some (Quoted.text s.toList)
  | .date d => some d.written.toList
  | .instant t => some t.written.toList
  | .list items => (writtenItems? items).map fun cs => '[' :: cs ++ [']']
  | .mapping entries => (writtenEntries? entries).map fun cs => '\x7b' :: cs ++ ['\x7d']

/-- The items of a list, separated by commas. -/
def writtenItems? : List Value → Option (List Char)
  | [] => some []
  | v :: rest => do
    let head ← written? v
    let tail ← writtenItems? rest
    some (if rest.isEmpty then head else head ++ ", ".toList ++ tail)

/-- The entries of a mapping, separated by commas. -/
def writtenEntries? : List (Value × Value) → Option (List Char)
  | [] => some []
  | (k, v) :: rest => do
    let key ← written? k
    let value ← written? v
    let tail ← writtenEntries? rest
    let head := key ++ ": ".toList ++ value
    some (if rest.isEmpty then head else head ++ ", ".toList ++ tail)

end

/-- The text of a value on its own: a text, a date or an instant stands there as it is. -/
def shown? : Value → Option String
  | .text s => some s
  | .date d => some d.text
  | .instant t => some t.text
  | v => (written? v).map String.ofList

end Value

end Chip8
