import Chip8.Document.Value
import Chip8.Yaml.Error

/-!
# Scalars

The values of plain scalars. A plain scalar is a truth value, a floating-point number, an integer,
null, a date or an instant if it has the form of one, and a text otherwise. The forms exclude each
other.

Underscores in numbers are dropped. Integers are binary after `0b`, hexadecimal after `0x`, octal
after another leading zero, sexagesimal if they hold colons, and decimal otherwise.

## Main definitions

* `Scalar.int?`, `Scalar.float?`, `Scalar.calendar?` — numbers and dates by their form
* `Scalar.value` — the value of a plain scalar
-/

namespace Chip8

namespace Yaml

namespace Scalar

/-! ### Parts of numbers -/

/-- Whether a character is an ASCII digit below the given one. -/
def isDigitBelow (limit : Nat) (c : Char) : Bool := '0' ≤ c && c.toNat < 48 + limit

/-- Whether a character is an ASCII decimal digit. -/
def isDigit (c : Char) : Bool := isDigitBelow 10 c

/-- Whether a character is a hexadecimal digit. -/
def isHexDigit (c : Char) : Bool := (Numeral.digitValue? c).any (· < 16)

/-- The number of a list of ASCII digits. -/
def digitsValue (cs : List Char) : Nat := Numeral.ofDigits 10 (cs.map fun c => c.toNat - 48)

/-- A text without underscores. -/
def dropUnderscores (cs : List Char) : List Char := cs.filter (· ≠ '_')

/-- Whether a number is negative, and the text behind its sign. -/
def splitSign : List Char → Bool × List Char
  | '-' :: rest => (true, rest)
  | '+' :: rest => (false, rest)
  | cs => (false, cs)

/-- The parts of a text between colons. -/
def colonParts : List Char → List (List Char)
  | [] => [[]]
  | c :: rest =>
    match colonParts rest with
    | part :: parts => if c = ':' then [] :: part :: parts else (c :: part) :: parts
    | [] => [[c]]

/-- Whether a part of a sexagesimal number behind a colon has one digit, or two and is below
sixty. -/
def isSexagesimalPart : List Char → Bool
  | [a] => isDigit a
  | [a, b] => isDigitBelow 6 a && isDigit b
  | _ => false

/-- Whether a text is a digit followed by digits and underscores. -/
def isDigitRun : List Char → Bool
  | [] => false
  | c :: rest => isDigit c && rest.all fun d => isDigit d || d = '_'

/-! ### Integers -/

/-- An unsigned integer by its form. -/
inductive IntForm where
  /-- Digits in a base, behind the mark of the base. -/
  | based (base : Nat) (digits : List Char)
  | sexagesimal (parts : List (List Char))

/-- The form of an unsigned integer. -/
def intForm? (cs : List Char) : Option IntForm :=
  let digits := fun (p : Char → Bool) (ds : List Char) =>
    !ds.isEmpty && ds.all fun c => p c || c = '_'
  match cs with
  | '0' :: 'b' :: ds => if digits (isDigitBelow 2) ds then some (.based 2 ds) else none
  | '0' :: 'x' :: ds => if digits isHexDigit ds then some (.based 16 ds) else none
  | ['0'] => some (.based 10 ['0'])
  | '0' :: ds => if digits (isDigitBelow 8) ds then some (.based 8 ('0' :: ds)) else none
  | _ =>
    if isDigitRun cs then some (.based 10 cs)
    else
      match colonParts cs with
      | first :: second :: parts =>
        if isDigitRun first && (second :: parts).all isSexagesimalPart then
          some (.sexagesimal (first :: second :: parts))
        else none
      | _ => none

/-- The number of digits in a base. -/
def basedValue (base : Nat) (digits : List Char) : Except Error Int :=
  (IntLiteral.read base digits).mapError (.number base digits)

/-- The number of sexagesimal parts. -/
def sexagesimalValue (parts : List (List Char)) : Except Error Int := do
  let values ← parts.mapM (basedValue 10)
  .ok (values.foldl (fun n v => n * 60 + v) 0)

/-- The value of an integer by its form. -/
def IntForm.value : IntForm → Except Error Int
  | .based base digits => basedValue base (dropUnderscores digits)
  | .sexagesimal parts => sexagesimalValue (parts.map dropUnderscores)

/-- The integer of a text, if it has the form of one. -/
def int? (cs : List Char) : Option (Except Error Int) :=
  let (negative, body) := splitSign cs
  (intForm? body).map fun form => form.value.map fun n => if negative then -n else n

/-! ### Floating-point numbers -/

/-- The number `m * 10 ^ e`. Exponents beyond those of floating-point numbers are cut. -/
def scaled (m : Nat) (e : Int) : Float :=
  let digits : Int := (Numeral.digits 10 m).length
  if m = 0 ∨ digits + e < -400 then 0.0
  else if 400 < digits + e then 1.0 / 0.0
  else if e < 0 then Float.ofScientific m true e.natAbs
  else Float.ofScientific m false e.natAbs

/-- The exponent of a number: a letter, a sign and digits; none stands for zero. -/
def exponent? : List Char → Option Int
  | [] => some 0
  | c :: sign :: ds =>
    if (c = 'e' ∨ c = 'E') ∧ (sign = '+' ∨ sign = '-') ∧ !ds.isEmpty ∧ ds.all isDigit then
      some (if sign = '-' then -(digitsValue ds : Int) else digitsValue ds)
    else none
  | _ => none

/-- The number with the given digits before and behind the point. -/
def pointValue (whole fraction : List Char) (exponent : Int) : Float :=
  let fraction := dropUnderscores fraction
  scaled (digitsValue (dropUnderscores whole ++ fraction)) (exponent - fraction.length)

/-- An unsigned number with a point. Its digits may only begin with the point if it has no sign and
a digit behind it. -/
def pointForm? (signed : Bool) (cs : List Char) : Option Float :=
  let isBody := fun c : Char => isDigit c || c = '_'
  let whole := cs.takeWhile isBody
  match cs.dropWhile isBody with
  | '.' :: rest =>
    let fraction := rest.takeWhile isBody
    let allowed := if whole.isEmpty then !signed && isDigitRun fraction else isDigitRun whole
    if allowed then (exponent? (rest.dropWhile isBody)).map (pointValue whole fraction) else none
  | _ => none

/-- The weight of a place of a sexagesimal number, counted from the last place. It has to be below
the bound of the floating-point numbers, whatever digits stand there. -/
def weight (place : Nat) : Except Error Float :=
  let w := Nat.pow 60 place
  if w < Nat.pow 2 1024 then .ok (Float.ofNat w) else .error .weightTooLarge

/-- The number with the given values at its places, the last place first. -/
def sexagesimalSum (places : List Float) : Except Error Float :=
  places.zipIdx.foldlM
    (fun sum (value, place) => (weight place).map fun w => sum + value * w) 0.0

/-- An unsigned sexagesimal number with a point in its last part. -/
def sexagesimalForm? (cs : List Char) : Option (Except Error Float) :=
  let whole := cs.takeWhile (· ≠ '.')
  match cs.dropWhile (· ≠ '.'), colonParts whole with
  | '.' :: fraction, first :: second :: parts =>
    let isFraction := fraction.all fun c => isDigit c || c = '_'
    if isDigitRun first && (second :: parts).all isSexagesimalPart && isFraction then
      let values := (first :: second :: parts).map fun part => pointValue part [] 0
      let last := pointValue ((second :: parts).getLast?.getD []) fraction 0
      some (sexagesimalSum (last :: values.reverse.drop 1))
    else none
  | _, _ => none

/-- The floating-point number of a text, if it has the form of one. -/
def float? (cs : List Char) : Option (Except Error Float) :=
  let (negative, body) := splitSign cs
  let signed := body.length < cs.length
  let text := String.ofList body
  let size : Option (Except Error Float) :=
    if text = ".inf" ∨ text = ".Inf" ∨ text = ".INF" then some (.ok (1.0 / 0.0))
    else if !signed ∧ (text = ".nan" ∨ text = ".NaN" ∨ text = ".NAN") then some (.ok (0.0 / 0.0))
    else ((pointForm? signed body).map .ok).or (sexagesimalForm? body)
  size.map fun result => result.map fun x => if negative then -x else x

/-! ### Dates and instants -/

/-- Takes between `least` and `most` digits from a text. -/
def takeNumber? (least most : Nat) (cs : List Char) : Option (Nat × List Char) :=
  let ds := (cs.take most).takeWhile isDigit
  if least ≤ ds.length then some (digitsValue ds, cs.drop ds.length) else none

/-- Takes a character from a text. -/
def takeChar? (c : Char) : List Char → Option (List Char)
  | [] => none
  | d :: rest => if d = c then some rest else none

/-- The distance from universal time that ends an instant. -/
def zone? (cs : List Char) : Option (Option Int) :=
  match cs.dropWhile isSpaceChar with
  | [] => if cs.isEmpty then some none else none
  | ['Z'] => some (some 0)
  | sign :: rest =>
    if sign = '+' ∨ sign = '-' then do
      let (hours, rest) ← takeNumber? 1 2 rest
      let minutes ← match rest with
        | [] => some 0
        | _ => do
          let rest ← takeChar? ':' rest
          let (minutes, rest) ← takeNumber? 2 2 rest
          if rest.isEmpty then some minutes else none
      let total : Int := (hours * 60 + minutes : Nat)
      some (some (if sign = '-' then -total else total))
    else none
where
  /-- Whether a character is a blank or a tab. -/
  isSpaceChar (c : Char) : Bool := c = ' ' || c = '\t'

/-- The microseconds of the digits behind the point of a second. -/
def microseconds (ds : List Char) : Nat :=
  digitsValue (ds.take 6 ++ List.replicate (6 - ds.length) '0')

/-- An instant behind its date: a mark or spaces, the time of day, and the distance from universal
time. -/
def instant? (year month day : Nat) (cs : List Char) : Option (Except CalendarError Instant) := do
  let clock ← match cs with
    | c :: rest =>
      if c = 'T' ∨ c = 't' then some rest
      else if zone?.isSpaceChar c then some (rest.dropWhile zone?.isSpaceChar)
      else none
    | [] => none
  let (hour, rest) ← takeNumber? 1 2 clock
  let rest ← takeChar? ':' rest
  let (minute, rest) ← takeNumber? 2 2 rest
  let rest ← takeChar? ':' rest
  let (second, rest) ← takeNumber? 2 2 rest
  let (fraction, rest) := match rest with
    | '.' :: ds => (ds.takeWhile isDigit, ds.dropWhile isDigit)
    | _ => ([], rest)
  let offset ← zone? rest
  some (Instant.ofFields year month day hour minute second (microseconds fraction) offset)

/-- The date or the instant of a text, if it has the form of one. A date on its own has two digits
for month and day; with a time of day one is enough. -/
def calendar? (cs : List Char) : Option (Except CalendarError Value) := do
  let (year, rest) ← takeNumber? 4 4 cs
  let rest ← takeChar? '-' rest
  let (month, rest) ← takeNumber? 1 2 rest
  let rest ← takeChar? '-' rest
  let (day, rest) ← takeNumber? 1 2 rest
  if rest.isEmpty then
    if cs.length = 10 then some ((Date.ofFields year month day).map .date) else none
  else (instant? year month day rest).map fun result => result.map .instant

/-! ### Words -/

/-- The three spellings of a word: in lower case, capitalised, and in upper case. -/
def isSpelling (word : String) (cs : List Char) : Bool :=
  let lower := word.toList
  let upper := lower.map upperLetter
  cs = lower || cs = upper || cs = upper.take 1 ++ lower.drop 1
where
  /-- A letter in upper case. -/
  upperLetter (c : Char) : Char := Char.ofNat (c.toNat - 32)

/-- The truth value of a word. -/
def bool? (cs : List Char) : Option Bool :=
  if ["yes", "true", "on"].any fun word => isSpelling word cs then some true
  else if ["no", "false", "off"].any fun word => isSpelling word cs then some false
  else none

/-- Whether a text stands for null. -/
def isNull (cs : List Char) : Bool := cs = [] || cs = ['~'] || isSpelling "null" cs

/-- The value of a plain scalar. The lone signs of equality and of merging have none. -/
def value (cs : List Char) : Except Error Value :=
  if cs = ['='] ∨ cs = ['<', '<'] then .error .malformed
  else if isNull cs then .ok .null
  else
    match bool? cs, float? cs, int? cs, calendar? cs with
    | some b, _, _, _ => .ok (.bool b)
    | none, some x, _, _ => x.map .float
    | none, none, some n, _ => n.map .int
    | none, none, none, some d => d.mapError .calendar
    | none, none, none, none => .ok (.text (String.ofList cs))

end Scalar

end Yaml

end Chip8
