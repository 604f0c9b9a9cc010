import Chip8.Yaml.ScalarText

/-!
# Tokens

The tokens of a YAML document. Indentation appears among them as the start and the end of block
collections, and the key of a mapping is marked in front of it, although only the colon behind it
tells that it is one: until then a token that may be a key is remembered as a candidate.

A candidate is given up when the line ends or after 1024 characters. One at the indentation of the
current block mapping has to be a key, so giving it up is a fault.

The tokens in front of a fault are kept. A reader that gets on with tokens as soon as they are
settled, which they are up to the first candidate, sees those and then the fault.

## Main definitions

* `Token` — the tokens
* `Lexer` — the state between two tokens
* `Token.ofText` — the tokens of a text, or those in front of its first fault

## Implementation notes

The language is that of configuration files: block and flow collections, plain scalars, scalars in
quotes, comments and document marks. Directives, anchors, aliases, tags and block scalars are
refused.
-/

namespace Chip8

namespace Yaml

/-- A token of a document. -/
inductive Token where
  | documentStart
  | documentEnd
  | blockSequenceStart
  | blockMappingStart
  | blockEnd
  | flowSequenceStart
  | flowSequenceEnd
  | flowMappingStart
  | flowMappingEnd
  /-- A dash in front of an item. -/
  | blockEntry
  /-- A comma. -/
  | flowEntry
  | key
  | value
  | scalar (text : List Char) (isPlain : Bool)
  deriving DecidableEq, Repr

/-- A token that may turn out to be the key of a mapping. -/
structure KeyCandidate where
  /-- The number of tokens before it. -/
  place : Nat
  required : Bool
  index : Nat
  line : Nat
  column : Nat

/-- The state between two tokens. -/
structure Lexer where
  cursor : Cursor
  /-- The tokens so far. -/
  tokens : Array Token
  /-- The indentation of the current block collection, -1 outside of any. -/
  indent : Int
  /-- The indentations of the block collections around it. -/
  indents : List Int
  /-- Whether a key may begin here. -/
  keyAllowed : Bool
  /-- The candidate of the current collection. -/
  candidate : Option KeyCandidate
  /-- The candidates of the collections around it, one for each open flow collection. -/
  outer : List (Option KeyCandidate)

namespace Lexer

/-- The state before the first token. -/
def start (text : List Char) : Lexer where
  cursor := .start text
  tokens := #[]
  indent := -1
  indents := []
  keyAllowed := true
  candidate := none
  outer := []

/-- Whether a flow collection is open. -/
def inFlow (l : Lexer) : Bool := !l.outer.isEmpty

/-- The state with a token added. -/
def emit (l : Lexer) (t : Token) : Lexer := { l with tokens := l.tokens.push t }

/-- The state with a token put in front of the tokens from a place on. -/
def emitAt (l : Lexer) (place : Nat) (t : Token) : Lexer :=
  { l with tokens := l.tokens.insertIdxIfInBounds place t }

/-- The state a number of characters on. -/
def advance (l : Lexer) (n : Nat) : Lexer := { l with cursor := l.cursor.skip n }

/-! ### Blanks and indentation -/

/-- Skips blanks, comments and line ends. In block context a key may begin on a new line. -/
def skipBlanks : Nat → Lexer → Lexer
  | 0, l => l
  | fuel + 1, l =>
    let c := l.cursor.skipWhile (· = ' ')
    let c := if c.rest.head? = some '#' then c.skipWhile (!isBreak ·) else c
    match c.takeBreak? with
    | some (_, c) =>
      skipBlanks fuel { l with cursor := c, keyAllowed := l.keyAllowed || !l.inFlow }
    | none => { l with cursor := c }

/-- Ends the block collections that are indented more than a column, given the indentations around
the current one. -/
def unwindFrom (column : Int) (l : Lexer) : List Int → Lexer
  | [] => { l with indents := [] }
  | outer :: rest =>
    if column < l.indent then unwindFrom column ({ l with indent := outer }.emit .blockEnd) rest
    else { l with indents := outer :: rest }

/-- Ends the block collections that are indented more than a column, outside of flow collections. -/
def unwind (l : Lexer) (column : Int) : Lexer :=
  if l.inFlow then l else unwindFrom column l l.indents

/-- Begins a block collection at a column if that is further in; says whether it did. -/
def indentTo (l : Lexer) (column : Nat) : Lexer × Bool :=
  if l.indent < column then
    ({ l with indents := l.indent :: l.indents, indent := column }, true)
  else (l, false)

/-! ### Candidates for keys -/

/-- Whether a candidate is too old to be a key. -/
def isStale (c : Cursor) (k : KeyCandidate) : Bool :=
  k.line ≠ c.line || 1024 < c.index - k.index

/-- Gives up the candidates that are too old. -/
def dropStale? (l : Lexer) : Option Lexer :=
  let stale := fun k : Option KeyCandidate => k.filter (isStale l.cursor)
  if (l.candidate :: l.outer).any fun k => (stale k).any (·.required) then none
  else
    let keep := fun k : Option KeyCandidate => k.filter (!isStale l.cursor ·)
    some { l with candidate := keep l.candidate, outer := l.outer.map keep }

/-- Gives up the candidate of the current collection. -/
def dropCandidate? (l : Lexer) : Option Lexer :=
  if l.candidate.any (·.required) then none else some { l with candidate := none }

/-- Makes the next token the candidate of the current collection, if a key may begin here. -/
def noteCandidate? (l : Lexer) : Option Lexer :=
  if l.keyAllowed then do
    let l ← l.dropCandidate?
    let c := l.cursor
    let required := !l.inFlow && l.indent = (c.column : Int)
    some { l with candidate := some ⟨l.tokens.size, required, c.index, c.line, c.column⟩ }
  else some l

/-! ### Single tokens -/

/-- A document mark of three characters. -/
def documentMark? (l : Lexer) (t : Token) : Option Lexer := do
  let l ← (l.unwind (-1)).dropCandidate?
  some ({ l with keyAllowed := false }.advance 3 |>.emit t)

/-- The start of a flow collection. -/
def flowStart? (l : Lexer) (t : Token) : Option Lexer := do
  let l ← l.noteCandidate?
  some ({ l with
    outer := l.candidate :: l.outer
    candidate := none
    keyAllowed := true }.advance 1 |>.emit t)

/-- The end of a flow collection, of which one must be open. -/
def flowEnd? (l : Lexer) (t : Token) : Option Lexer := do
  let l ← l.dropCandidate?
  match l.outer with
  | [] => none
  | candidate :: outer =>
    some ({ l with outer, candidate, keyAllowed := false }.advance 1 |>.emit t)

/-- A comma. -/
def flowEntry? (l : Lexer) : Option Lexer := do
  let l ← { l with keyAllowed := true }.dropCandidate?
  some (l.advance 1 |>.emit .flowEntry)

/-- In block context, begins a block collection at the cursor if that is further in. A collection
begins only where a key may begin. -/
def openBlock? (l : Lexer) (t : Token) : Option Lexer :=
  if l.inFlow then some l
  else if l.keyAllowed then
    match l.indentTo l.cursor.column with
    | (l, true) => some (l.emit t)
    | (l, false) => some l
  else none

/-- A dash in front of an item. -/
def blockEntry? (l : Lexer) : Option Lexer := do
  let l ← l.openBlock? .blockSequenceStart
  let l ← { l with keyAllowed := true }.dropCandidate?
  some (l.advance 1 |>.emit .blockEntry)

/-- A question mark in front of a key. -/
def explicitKey? (l : Lexer) : Option Lexer := do
  let l ← l.openBlock? .blockMappingStart
  let l ← { l with keyAllowed := !l.inFlow }.dropCandidate?
  some (l.advance 1 |>.emit .key)

/-- A colon in front of a value. If there is a candidate it becomes the key. -/
def value? (l : Lexer) : Option Lexer :=
  match l.candidate with
  | some k =>
    let l := { l with candidate := none, keyAllowed := false }.emitAt k.place .key
    let l :=
      if l.inFlow then l
      else
        match l.indentTo k.column with
        | (l, true) => l.emitAt k.place .blockMappingStart
        | (l, false) => l
    some (l.advance 1 |>.emit .value)
  | none => do
    let l ← l.openBlock? .blockMappingStart
    some ({ l with keyAllowed := !l.inFlow }.advance 1 |>.emit .value)

/-- A scalar in quotes. -/
def quoted? (l : Lexer) (double : Bool) : Option Lexer := do
  let l ← l.noteCandidate?
  let (text, cursor) ← l.cursor.quoted? double
  some ({ l with cursor, keyAllowed := false }.emit (.scalar text false))

/-- A plain scalar. -/
def plain? (l : Lexer) : Option Lexer := do
  let l ← l.noteCandidate?
  let p := l.cursor.plain l.inFlow (l.indent + 1)
  some ({ l with cursor := p.last, keyAllowed := p.newLine }.emit (.scalar p.text true))

/-- The token that begins with a character, given what follows it. -/
def token? (l : Lexer) (c : Char) (rest : List Char) : Option Lexer :=
  let alone := l.inFlow || startsBlank rest
  if l.cursor.atDocumentLine then
    l.documentMark? (if c = '-' then .documentStart else .documentEnd)
  else if c = '%' && l.cursor.column = 0 then none
  else if c = '[' then l.flowStart? .flowSequenceStart
  else if c = '\x7b' then l.flowStart? .flowMappingStart
  else if c = ']' then l.flowEnd? .flowSequenceEnd
  else if c = '\x7d' then l.flowEnd? .flowMappingEnd
  else if c = ',' then l.flowEntry?
  else if c = '-' && startsBlank rest then l.blockEntry?
  else if c = '?' && alone then l.explicitKey?
  else if c = ':' && alone then l.value?
  else if c = '\x27' then l.quoted? false
  else if c = '\x22' then l.quoted? true
  else if startsPlain l.inFlow (c :: rest) then l.plain?
  else none

/-- The state after the next token, and whether it was the last one. -/
def next? (l : Lexer) : Option (Lexer × Bool) := do
  let l ← (skipBlanks (l.cursor.size + 1) l).dropStale?
  let l := l.unwind l.cursor.column
  match l.cursor.rest with
  | [] =>
    let l ← (l.unwind (-1)).dropCandidate?
    some (l, true)
  | c :: rest =>
    let l ← l.token? c rest
    some (l, false)

/-- The tokens that are settled: those in front of the first candidate that may still be a key. -/
def settled (l : Lexer) : List Token :=
  let candidates := (l.candidate :: l.outer).filterMap fun k => k.filter (!isStale l.cursor ·)
  l.tokens.toList.take ((candidates.map (·.place)).foldl min l.tokens.size)

end Lexer

/-- The tokens of a text, or those that are settled in front of its first fault. -/
structure Token.Reading where
  tokens : List Token
  /-- Whether these are all tokens of a text without a fault. -/
  isComplete : Bool

/-- The tokens from a state on to the end of the text. -/
def Lexer.finish : Nat → Lexer → Token.Reading
  | 0, l => ⟨l.settled, false⟩
  | fuel + 1, l =>
    match l.next? with
    | some (l, true) => ⟨l.tokens.toList, true⟩
    | some (l, false) => finish fuel l
    | none => ⟨l.settled, false⟩

/-- The tokens of a text, or those in front of its first fault. -/
def Token.ofText (text : List Char) : Token.Reading :=
  Lexer.finish (text.length + 1) (.start text)

end Yaml

end Chip8
