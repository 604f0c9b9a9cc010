import Chip8.Yaml.Error
import Chip8.Yaml.Token

/-!
# Nodes

The tree of a YAML document: scalars, sequences and mappings. What is missing where a node is
expected, such as a value behind a colon, is the empty plain scalar.

A text holds at most one document. Without one its tree is missing, which is not a fault.
Collections lie in one another up to `Node.maxDepth` levels; one more is refused where it begins,
before anything behind it is looked at.

## Main definitions

* `Node` — the trees
* `Node.ofTokens` — the tree of the tokens of a text, or their first fault

## Implementation notes

Every call of a parsing function takes a token or hands its tokens to a function that does, so the
bound in `Node.ofTokens` is never met.
-/

namespace Chip8

namespace Yaml

/-- The tree of a document. -/
inductive Node where
  | scalar (text : List Char) (isPlain : Bool)
  | sequence (items : List Node)
  | mapping (entries : List (Node × Node))
  deriving Inhabited

namespace Node

/-- What stands for a missing node. -/
def empty : Node := .scalar [] true

/-- Where a node stands: which collections may begin there. -/
inductive Context where
  | flow
  | block
  /-- In a block mapping, where a sequence need not be indented. -/
  | blockEntry
  deriving DecidableEq

/-- The greatest number of collections that may lie in one another. -/
abbrev maxDepth : Nat := 490

/-- The levels that are left inside of a collection, if one may begin. -/
def deeper : Nat → Except Error Nat
  | 0 => .error .nestedTooDeeply
  | room + 1 => .ok room

/-- The tokens behind the comma that is due unless a flow collection begins or ends. -/
def flowSeparator (isFirst : Bool) (close : Token) : List Token → Except Error (List Token)
  | [] => .error .malformed
  | t :: rest =>
    if t = close || isFirst then .ok (t :: rest)
    else if t = .flowEntry then .ok rest
    else .error .malformed

mutual

/-- The node at the head of the tokens, and the tokens behind it. Collections may be `room` levels
deep from here on. -/
def parse (context : Context) (room : Nat) : Nat → List Token → Except Error (Node × List Token)
  | 0, _ => .error .malformed
  | fuel + 1, ts =>
    match ts with
    | .scalar text isPlain :: rest => .ok (.scalar text isPlain, rest)
    | .flowSequenceStart :: rest => do
      let (items, rest) ← flowItems (← deeper room) fuel true rest
      .ok (.sequence items, rest)
    | .flowMappingStart :: rest => do
      let (entries, rest) ← flowEntries (← deeper room) fuel true rest
      .ok (.mapping entries, rest)
    | .blockSequenceStart :: rest =>
      if context = .flow then .error .malformed
      else do
        let (items, rest) ← blockItems (← deeper room) fuel rest
        .ok (.sequence items, rest)
    | .blockMappingStart :: rest =>
      if context = .flow then .error .malformed
      else do
        let (entries, rest) ← blockEntries (← deeper room) fuel rest
        .ok (.mapping entries, rest)
    | .blockEntry :: _ =>
      if context = .blockEntry then do
        let (items, rest) ← plainItems (← deeper room) fuel ts
        .ok (.sequence items, rest)
      else .error .malformed
    | _ => .error .malformed
termination_by structural fuel => fuel

/-- The items of a block sequence up to its end. -/
def blockItems (room : Nat) : Nat → List Token → Except Error (List Node × List Token)
  | 0, _ => .error .malformed
  | fuel + 1, ts =>
    match ts with
    | .blockEnd :: rest => .ok ([], rest)
    | .blockEntry :: rest => do
      let (item, rest) ← match rest with
        | .blockEntry :: _ | .blockEnd :: _ => .ok (empty, rest)
        | _ => parse .block room fuel rest
      let (items, rest) ← blockItems room fuel rest
      .ok (item :: items, rest)
    | _ => .error .malformed
termination_by structural fuel => fuel

/-- The items of a sequence that is not indented; it ends where no item follows. -/
def plainItems (room : Nat) : Nat → List Token → Except Error (List Node × List Token)
  | 0, _ => .error .malformed
  | fuel + 1, ts =>
    match ts with
    | .blockEntry :: rest => do
      let (item, rest) ← match rest with
        | .blockEntry :: _ | .key :: _ | .value :: _ | .blockEnd :: _ => .ok (empty, rest)
        | _ => parse .block room fuel rest
      let (items, rest) ← plainItems room fuel rest
      .ok (item :: items, rest)
    | _ => .ok ([], ts)
termination_by structural fuel => fuel

/-- The entries of a block mapping up to its end. -/
def blockEntries (room : Nat) : Nat → List Token → Except Error (List (Node × Node) × List Token)
  | 0, _ => .error .malformed
  | fuel + 1, ts =>
    match ts with
    | .blockEnd :: rest => .ok ([], rest)
    | .key :: rest => do
      let (key, rest) ← blockNode room fuel rest
      let (value, rest) ← match rest with
        | .value :: rest => blockNode room fuel rest
        | _ => .ok (empty, rest)
      let (entries, rest) ← blockEntries room fuel rest
      .ok ((key, value) :: entries, rest)
    | _ => .error .malformed
termination_by structural fuel => fuel

/-- The key or the value of an entry of a block mapping, which may be missing. -/
def blockNode (room : Nat) : Nat → List Token → Except Error (Node × List Token)
  | 0, _ => .error .malformed
  | fuel + 1, ts =>
    match ts with
    | .key :: _ | .value :: _ | .blockEnd :: _ => .ok (empty, ts)
    | _ => parse .blockEntry room fuel ts
termination_by structural fuel => fuel

/-- The items of a flow sequence up to its end. An item with a key mark is a mapping of one
entry. -/
def flowItems (room : Nat) : Nat → Bool → List Token → Except Error (List Node × List Token)
  | 0, _, _ => .error .malformed
  | fuel + 1, isFirst, ts => do
    let ts ← flowSeparator isFirst .flowSequenceEnd ts
    match ts with
    | .flowSequenceEnd :: rest => .ok ([], rest)
    | .key :: rest =>
      let (entry, rest) ← flowEntry (← deeper room) fuel .flowSequenceEnd rest
      let (items, rest) ← flowItems room fuel false rest
      .ok (.mapping [entry] :: items, rest)
    | _ =>
      let (item, rest) ← parse .flow room fuel ts
      let (items, rest) ← flowItems room fuel false rest
      .ok (item :: items, rest)
termination_by structural fuel => fuel

/-- The entries of a flow mapping up to its end. An entry without a key mark has no value. -/
def flowEntries (room : Nat) :
    Nat → Bool → List Token → Except Error (List (Node × Node) × List Token)
  | 0, _, _ => .error .malformed
  | fuel + 1, isFirst, ts => do
    let ts ← flowSeparator isFirst .flowMappingEnd ts
    match ts with
    | .flowMappingEnd :: rest => .ok ([], rest)
    | .key :: rest =>
      let (entry, rest) ← flowEntry room fuel .flowMappingEnd rest
      let (entries, rest) ← flowEntries room fuel false rest
      .ok (entry :: entries, rest)
    | _ =>
      let (key, rest) ← parse .flow room fuel ts
      let (entries, rest) ← flowEntries room fuel false rest
      .ok ((key, empty) :: entries, rest)
termination_by structural fuel => fuel

/-- The entry behind a key mark in a flow collection with the given end. -/
def flowEntry (room : Nat) : Nat → Token → List Token → Except Error ((Node × Node) × List Token)
  | 0, _, _ => .error .malformed
  | fuel + 1, close, ts => do
    let (key, rest) ← flowNode room fuel close true ts
    let (value, rest) ← match rest with
      | .value :: rest => flowNode room fuel close false rest
      | _ => .ok (empty, rest)
    .ok ((key, value), rest)
termination_by structural fuel => fuel

/-- The key or the value of an entry in a flow collection, which may be missing. -/
def flowNode (room : Nat) : Nat → Token → Bool → List Token → Except Error (Node × List Token)
  | 0, _, _, _ => .error .malformed
  | fuel + 1, close, isKey, ts =>
    match ts with
    | [] => .error .malformed
    | t :: _ =>
      if t = .flowEntry || t = close || (isKey && t = .value) then .ok (empty, ts)
      else parse .flow room fuel ts
termination_by structural fuel => fuel

end

/-- Whether only document ends are left. -/
def isFinished (ts : List Token) : Bool := ts.all (· = .documentEnd)

/-- The tree of the tokens of a text, if it holds a document, or their first fault. -/
def ofTokens (ts : List Token) : Except Error (Option Node) :=
  let bound := 5 * ts.length + 5
  match ts with
  | [] => .ok none
  | .documentStart :: rest =>
    match rest with
    | [] | .documentStart :: _ | .documentEnd :: _ =>
      if isFinished rest then .ok (some empty) else .error .malformed
    | _ => complete (parse .block maxDepth bound rest)
  | _ => complete (parse .block maxDepth bound ts)
where
  /-- A document behind which nothing but document ends is left. -/
  complete (parsed : Except Error (Node × List Token)) : Except Error (Option Node) := do
    let (node, rest) ← parsed
    if isFinished rest then .ok (some node) else .error .malformed

end Node

end Yaml

end Chip8
