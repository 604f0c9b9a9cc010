import Chip8.Yaml.Node

/-!
# Merge keys

A mapping takes over the entries of other mappings through the plain key `<<`. Its value is a
mapping, or a sequence of mappings of which an earlier one prevails over a later one. The entries
that are taken over stand in front of those of the mapping itself; since a later entry replaces an
earlier one of its key, the mapping's own entries prevail.

A mapping whose merge keys have other values is left with these merge keys alone. They have no value
as keys, so the mapping is refused whatever else it holds.

## Main definitions

* `Node.mergeEntries` — the entries of a mapping after its merge keys were followed
* `Node.merged` — the tree without merge keys
-/

namespace Chip8

namespace Yaml

namespace Node

/-- Whether a key asks for the entries of other mappings. -/
def isMergeKey : Node → Bool
  | .scalar text isPlain => isPlain && text == ['<', '<']
  | _ => false

/-- The entries that a mapping lends to another. One with a merge key left has been refused, and
what is no mapping has none. -/
def lentEntries? : Node → Option (List (Node × Node))
  | .mapping entries => if entries.any fun e => isMergeKey e.1 then none else some entries
  | _ => none

/-- The entries that the value of a merge key stands for. Those of the first mapping of a sequence
come last, so that they prevail. -/
def sourceEntries? : Node → Option (List (Node × Node))
  | .sequence items => (items.mapM lentEntries?).map fun lent => lent.reverse.flatten
  | n => lentEntries? n

/-- The entries of a mapping after its merge keys were followed; only the merge keys if one of them
has a value without entries. -/
def mergeEntries (entries : List (Node × Node)) : List (Node × Node) :=
  let (marks, own) := entries.partition fun e => isMergeKey e.1
  match marks.mapM fun e => sourceEntries? e.2 with
  | some lent => lent.flatten ++ own
  | none => marks

mutual

/-- The tree without merge keys. Inner mappings are merged before they lend their entries. -/
def merged : Node → Node
  | .scalar text isPlain => .scalar text isPlain
  | .sequence items => .sequence (mergedItems items)
  | .mapping entries => .mapping (mergeEntries (mergedValues entries))

/-- The items of a sequence without merge keys. -/
def mergedItems : List Node → List Node
  | [] => []
  | item :: rest => merged item :: mergedItems rest

/-- The entries of a mapping whose values have no merge keys. -/
def mergedValues : List (Node × Node) → List (Node × Node)
  | [] => []
  | (k, v) :: rest => (k, merged v) :: mergedValues rest

end

end Node

end Yaml

end Chip8
