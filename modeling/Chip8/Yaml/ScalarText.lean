import Chip8.Text.Numeral
import Chip8.Yaml.Cursor

/-!
# Scalar texts

The texts of scalars as they stand in a document: plain, or in quotes. A line end inside a scalar is
folded, and blanks around it are dropped. Between apostrophes only the doubled apostrophe is
special, between double quotes a backslash begins an escape.

## Main definitions

* `Cursor.quoted?` — a scalar in quotes
* `Cursor.plain` — a plain scalar
-/

namespace Chip8

namespace Yaml

/-! ### Quotes -/

/-- The character of an escape of one letter. -/
def escapeChar? (c : Char) : Option Char :=
  ([('0', '\x00'), ('a', '\x07'), ('b', '\x08'), ('t', '\t'), ('\t', '\t'), ('n', '\n'),
    ('v', '\x0b'), ('f', '\x0c'), ('r', '\r'), ('e', '\x1b'), (' ', ' '), ('\x22', '\x22'),
    ('\\', '\\'), ('/', '/'), ('N', '\u0085'), ('_', '\u00a0'), ('L', '\u2028'),
    ('P', '\u2029')] : List (Char × Char)).lookup c

/-- The number of hexadecimal digits of an escape by code. -/
def escapeWidth? (c : Char) : Option Nat :=
  ([('x', 2), ('u', 4), ('U', 8)] : List (Char × Nat)).lookup c

/-- The character of a code in hexadecimal digits of the given number. -/
def codeChar? (width : Nat) (cs : List Char) : Option Char := do
  let ds ← (cs.take width).mapM fun c => (Numeral.digitValue? c).filter (· < 16)
  let n := Numeral.ofDigits 16 ds
  if ds.length = width ∧ n.isValidChar then some (Char.ofNat n) else none

/-- Whether a character has no special meaning between quotes. -/
def isQuotable (c : Char) : Bool :=
  !(c = '\x27' || c = '\x22' || c = '\\' || isSpace c || isBreak c)

namespace Cursor

/-- The text of an escape, from its backslash on, and the place behind it. -/
def escape? (c : Cursor) : Option (List Char × Cursor) :=
  let body := c.next
  match body.rest with
  | [] => none
  | ch :: rest =>
    match escapeChar? ch, escapeWidth? ch, body.takeBreak? with
    | some value, _, _ => some ([value], body.next)
    | none, some width, _ => (codeChar? width rest).map fun v => ([v], body.skip (width + 1))
    | none, none, some (_, line) =>
      let (more, last) := line.breaks isSpace (line.size + 1)
      if last.atDocumentLine then none else some (more, last)
    | none, none, none => none

/-- The text from here up to the next space, line end or closing quote. -/
def quotedRun? (double : Bool) : Nat → Cursor → Option (List Char × Cursor)
  | 0, c => some ([], c)
  | fuel + 1, c =>
    let (head, c) := c.span isQuotable
    let goOn (piece : List Char) (c : Cursor) : Option (List Char × Cursor) :=
      (quotedRun? double fuel c).map fun (tail, last) => (head ++ piece ++ tail, last)
    match c.rest with
    | '\x27' :: '\x27' :: _ =>
      if double then goOn ['\x27'] c.next else goOn ['\x27'] (c.skip 2)
    | '\x27' :: _ => if double then goOn ['\x27'] c.next else some (head, c)
    | '\x22' :: _ => if double then some (head, c) else goOn ['\x22'] c.next
    | '\\' :: _ =>
      if double then c.escape?.bind fun (piece, last) => goOn piece last
      else goOn ['\\'] c.next
    | _ => some (head, c)

/-- The text of spaces or of folded line ends between quotes. -/
def quotedSpace? (c : Cursor) : Option (List Char × Cursor) :=
  let (blank, c) := c.span isSpace
  match c.rest, c.takeBreak? with
  | [], _ => none
  | _, none => some (blank, c)
  | _, some (b, line) =>
    let (more, last) := line.breaks isSpace (line.size + 1)
    if last.atDocumentLine then none else some (folded b more, last)

/-- The text up to the closing quote, and the place behind it. -/
def quotedUntil? (double : Bool) : Nat → Cursor → Option (List Char × Cursor)
  | 0, _ => none
  | fuel + 1, c =>
    if c.rest.head? = some (if double then '\x22' else '\x27') then some ([], c.next)
    else do
      let (space, c) ← c.quotedSpace?
      let (text, c) ← quotedRun? double (c.size + 1) c
      let (tail, last) ← quotedUntil? double fuel c
      some (space ++ text ++ tail, last)

/-- The text of a scalar in quotes, from its opening quote on, and the place behind it. -/
def quoted? (c : Cursor) (double : Bool) : Option (List Char × Cursor) := do
  let body := c.next
  let (text, c) ← quotedRun? double (body.size + 1) body
  let (tail, last) ← quotedUntil? double (c.size + 1) c
  some (text ++ tail, last)

end Cursor

/-! ### Plain scalars -/

/-- Whether a character is one of those that shape flow collections. -/
def isFlowMark (c : Char) : Bool :=
  c = ',' || c = '[' || c = ']' || c = '\x7b' || c = '\x7d'

/-- Whether a plain scalar can begin here. -/
def startsPlain (inFlow : Bool) : List Char → Bool
  | [] => false
  | c :: rest =>
    if isSpace c || isBreak c || isFlowMark c then false
    else if c = '-' then !startsBlank rest
    else if c = '?' || c = ':' then !inFlow && !startsBlank rest
    else !("#&*!|>%@\x27\x22\x60".toList.contains c)

/-- The number of characters of a plain scalar up to the next space or mark. -/
def plainLength (inFlow : Bool) : List Char → Nat
  | [] => 0
  | c :: rest =>
    let endsKey := c = ':' && (startsBlank rest || (inFlow && rest.head?.any isFlowMark))
    if isSpace c || isBreak c || endsKey || (inFlow && (isFlowMark c || c = '?')) then 0
    else plainLength inFlow rest + 1

namespace Cursor

/-- What separates two runs of a plain scalar. -/
structure PlainSpace where
  /-- The text that the separation stands for; empty if the scalar ends here. -/
  text : List Char
  /-- Whether a line ends in it. -/
  newLine : Bool
  last : Cursor

/-- The blanks or the folded line ends from here on. -/
def plainSpace (c : Cursor) : PlainSpace :=
  let (blank, inside) := c.span (· = ' ')
  match inside.takeBreak? with
  | none => ⟨blank, false, inside⟩
  | some (b, line) =>
    let (more, last) := line.breaks (· = ' ') (line.size + 1)
    ⟨if last.atDocumentLine then [] else folded b more, true, last⟩

/-- A plain scalar that was read: its text, whether a line ended behind its last run, and the place
behind it. -/
structure Plain where
  text : List Char
  newLine : Bool
  last : Cursor

/-- The rest of a plain scalar: `text` is what was read, `space` what separates it from a run that
may follow here. In block context the lines of the scalar are indented by at least `indent`. -/
def plainRest (inFlow : Bool) (indent : Int) : Nat → List Char → PlainSpace → Plain
  | 0, text, space => ⟨text, space.newLine, space.last⟩
  | fuel + 1, text, space =>
    let c := space.last
    let length := if c.rest.head? = some '#' then 0 else plainLength inFlow c.rest
    if length = 0 then ⟨text, space.newLine, c⟩
    else
      let more := text ++ space.text ++ c.rest.take length
      let next := (c.skip length).plainSpace
      let outside := !inFlow && (next.last.column : Int) < indent
      if next.text.isEmpty || outside then ⟨more, next.newLine, next.last⟩
      else plainRest inFlow indent fuel more next

/-- The plain scalar that begins here. -/
def plain (c : Cursor) (inFlow : Bool) (indent : Int) : Plain :=
  plainRest inFlow indent (c.size + 1) [] ⟨[], false, c⟩

end Cursor

end Yaml

end Chip8
