/-!
# Cursors

A place in a YAML text: the characters from there on, and line, column and index of the first of
them. The size of the whole text goes with it, as a bound on what can follow. Lines end at a line feed, a carriage return, both in this order, or at one of the three line
separators beyond ASCII.

## Main definitions

* `Cursor` — a place in a text
* `Cursor.next`, `Cursor.span` — one character on, and a run of characters
* `Cursor.takeBreak?` — a line end
* `Cursor.atDocumentMark` — three dashes or dots on their own
* `Cursor.breaks`, `Cursor.folded` — line ends inside a scalar, and what they stand for
-/

namespace Chip8

namespace Yaml

/-- A place in a text. -/
structure Cursor where
  rest : List Char
  index : Nat
  line : Nat
  column : Nat
  /-- The number of characters of the whole text. -/
  size : Nat

/-- Whether a character ends a line. -/
def isBreak (c : Char) : Bool :=
  c = '\n' || c = '\r' || c = '\u0085' || c = '\u2028' || c = '\u2029'

/-- Whether a character is a blank or a tab. -/
def isSpace (c : Char) : Bool := c = ' ' || c = '\t'

/-- Whether a text begins with a blank, a tab or a line end, or is empty. -/
def startsBlank : List Char → Bool
  | [] => true
  | c :: _ => isSpace c || isBreak c

namespace Cursor

/-- The beginning of a text. A byte order mark there is skipped. -/
def start (text : List Char) : Cursor :=
  match text with
  | '\uFEFF' :: rest => ⟨rest, 1, 0, 0, text.length⟩
  | _ => ⟨text, 0, 0, 0, text.length⟩

/-- One character on. A carriage return ends a line only if no line feed follows, and a byte order
mark has no width. -/
def next (c : Cursor) : Cursor :=
  match c.rest with
  | [] => c
  | ch :: rest =>
    let c := { c with rest, index := c.index + 1 }
    if isBreak ch && !(ch = '\r' && rest.head? = some '\n') then
      { c with line := c.line + 1, column := 0 }
    else if ch = '\uFEFF' then c
    else { c with column := c.column + 1 }

/-- A number of characters on. -/
def skip : Nat → Cursor → Cursor
  | 0, c => c
  | n + 1, c => skip n c.next

/-- The run of characters that satisfy a condition, and the place behind it. -/
def span (p : Char → Bool) (c : Cursor) : List Char × Cursor :=
  let taken := c.rest.takeWhile p
  (taken, c.skip taken.length)

/-- The place behind the characters that satisfy a condition. -/
def skipWhile (p : Char → Bool) (c : Cursor) : Cursor := (c.span p).2

/-- A line end: the character that it stands for in a text, and the place behind it. -/
def takeBreak? (c : Cursor) : Option (Char × Cursor) :=
  match c.rest with
  | '\r' :: '\n' :: _ => some ('\n', c.skip 2)
  | ch :: _ =>
    if ch = '\u2028' ∨ ch = '\u2029' then some (ch, c.next)
    else if isBreak ch then some ('\n', c.next)
    else none
  | [] => none

/-- Whether three dashes or three dots stand here on their own. -/
def atDocumentMark (c : Cursor) : Bool :=
  match c.rest with
  | '-' :: '-' :: '-' :: rest => startsBlank rest
  | '.' :: '.' :: '.' :: rest => startsBlank rest
  | _ => false

/-- The line ends from here on, and the place behind them. Of the characters between them those that
satisfy `filler` are skipped. A document mark behind a line end is not passed. -/
def breaks (filler : Char → Bool) : Nat → Cursor → List Char × Cursor
  | 0, c => ([], c)
  | fuel + 1, c =>
    if c.atDocumentMark then ([], c)
    else
      let inside := c.skipWhile filler
      match inside.takeBreak? with
      | none => ([], inside)
      | some (b, line) =>
        let (more, last) := breaks filler fuel line
        (b :: more, last)

/-- Whether a line begins here with a document mark. -/
def atDocumentLine (c : Cursor) : Bool := c.column = 0 && c.atDocumentMark

/-- What a folded line end stands for: a single line feed for a blank, or for nothing if more line
ends follow it. -/
def folded (first : Char) (more : List Char) : List Char :=
  if first ≠ '\n' then first :: more
  else if more.isEmpty then [' ']
  else more

end Cursor

end Yaml

end Chip8
