import Chip8.Yaml.Merge
import Chip8.Yaml.Scalar

/-!
# Documents

The value of a YAML text. Values are made level by level: of two faulty elements the one that is
nested less deeply is reported, and of two on the same level the first one. Merge keys are followed
before that, so an entry that is taken over lies on the level of the mapping that takes it.

## Main definitions

* `Node.value` — the value of a tree without faults
* `Node.faultsAt` — the faults of a tree on one level
* `Yaml.read` — the value of a text, or the reason why it has none
-/

namespace Chip8

namespace Yaml

namespace Node

/-- The value of a scalar. -/
def scalarValue (text : List Char) (isPlain : Bool) : Except Error Value :=
  if isPlain then Scalar.value text else .ok (.text (String.ofList text))

/-- The faults of a scalar. -/
def scalarFaults (text : List Char) (isPlain : Bool) : List Error :=
  match scalarValue text isPlain with
  | .ok _ => []
  | .error e => [e]

/-- The faults of a key. The lone sign of equality is a text there, and a collection is no key. -/
def keyFaults : Node → List Error
  | .scalar text isPlain => if text = ['='] then [] else scalarFaults text isPlain
  | _ => [.malformed]

mutual

/-- The value of a tree without faults. -/
def value : Node → Value
  | .scalar text isPlain =>
    match scalarValue text isPlain with
    | .ok v => v
    | .error _ => .text (String.ofList text)
  | .sequence items => .list (values items)
  | .mapping entries => Value.ofEntries (entryValues entries)

/-- The values of the items of a sequence. -/
def values : List Node → List Value
  | [] => []
  | item :: rest => value item :: values rest

/-- The values of the entries of a mapping. -/
def entryValues : List (Node × Node) → List (Value × Value)
  | [] => []
  | (k, v) :: rest => (value k, value v) :: entryValues rest

end

mutual

/-- The faults of a tree on the level of the given depth below its root. -/
def faultsAt : Nat → Node → List Error
  | 0, .scalar text isPlain => scalarFaults text isPlain
  | 0, _ => []
  | _ + 1, .scalar _ _ => []
  | depth + 1, .sequence items => itemFaultsAt depth items
  | depth + 1, .mapping entries => entryFaultsAt depth entries

/-- The faults of the items of a sequence. -/
def itemFaultsAt : Nat → List Node → List Error
  | _, [] => []
  | depth, item :: rest => faultsAt depth item ++ itemFaultsAt depth rest

/-- The faults of the entries of a mapping; those of its keys are on the level of the values. -/
def entryFaultsAt : Nat → List (Node × Node) → List Error
  | _, [] => []
  | depth, (k, v) :: rest =>
    (if depth = 0 then keyFaults k else []) ++ faultsAt depth v ++ entryFaultsAt depth rest

end

mutual

/-- The number of levels of a tree. -/
def levels : Node → Nat
  | .scalar _ _ => 1
  | .sequence items => itemLevels items + 1
  | .mapping entries => entryLevels entries + 1

/-- The greatest number of levels of the items of a sequence. -/
def itemLevels : List Node → Nat
  | [] => 0
  | item :: rest => max (levels item) (itemLevels rest)

/-- The greatest number of levels of the values of a mapping; its keys have one. -/
def entryLevels : List (Node × Node) → Nat
  | [] => 1
  | (_, v) :: rest => max (levels v) (entryLevels rest)

end

/-- The value of a tree, or its first fault. -/
def read (n : Node) : Except Error Value :=
  match (List.range n.levels).findSome? fun depth => (n.faultsAt depth).head? with
  | some e => .error e
  | none => .ok n.value

end Node

/-- Whether a character may stand in a text. -/
def isTextChar (c : Char) : Bool :=
  let n := c.toNat
  n = 0x09 || n = 0x0A || n = 0x0D || (0x20 ≤ n && n ≤ 0x7E) || n = 0x85 ||
    (0xA0 ≤ n && n ≤ 0xFFFD) || 0x10000 ≤ n

/-- The value of a text, or the reason why it has none. A text without a document is null. Of a text
with a fault among its tokens only the tree of those in front of it is looked at, for a fault of its
own. -/
def read (text : String) : Except Error Value :=
  let cs := text.toList
  if cs.all isTextChar then do
    let reading := Token.ofText cs
    let tree ← Node.ofTokens reading.tokens
    if reading.isComplete then
      match tree with
      | some n => n.merged.read
      | none => .ok .null
    else .error .malformed
  else .error .malformed

end Yaml

end Chip8
