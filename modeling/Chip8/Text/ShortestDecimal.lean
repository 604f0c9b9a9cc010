import Chip8.Text.Numeral

/-!
# Shortest decimals

The decimal numeral with the fewest digits that reads back as a given binary64 number. The number
is taken apart into `m * 2 ^ q`; every real number of an interval around it rounds to it, and the
ends of the interval belong to it exactly if `m` is even. For one, two, three and more digits the
two neighbours of the number on that decimal grid are tested with whole numbers only, and the first
grid with a neighbour inside the interval gives the digits.

## Main definitions

* `Binary64` — the parts of a binary64 number
* `ShortestDecimal.ofParts` — the digits and the place of the point
* `DecimalLayout` — where a format ends positional notation, and how it writes exponents
* `DecimalLayout.render` — the text of a number in a layout

## Implementation notes

Seventeen digits tell any two binary64 numbers apart, so the search ends by then.
-/

namespace Chip8

/-- A binary64 number by its parts. -/
inductive Binary64 where
  | nan
  | infinite (negative : Bool)
  /-- The number `m * 2 ^ q`, or its opposite. -/
  | finite (negative : Bool) (m : Nat) (q : Int)
  deriving DecidableEq, Repr

namespace Binary64

/-- The bit in front of the fifty-two that are stored of a significand. -/
abbrev hiddenBit : Nat := 0x10000000000000

/-- The parts of a number: one sign bit, eleven bits of exponent, fifty-two bits of significand. -/
def ofFloat (x : Float) : Binary64 :=
  let bits := x.toBits.toNat
  let negative : Bool := bits >>> 63 = 1
  let exponent : Nat := bits >>> 52 % 2048
  let fraction : Nat := bits % hiddenBit
  if exponent = 2047 then
    if fraction = 0 then .infinite negative else .nan
  else if exponent = 0 then .finite negative fraction (-1074)
  else .finite negative (fraction + hiddenBit) ((exponent : Int) - 1075)

end Binary64

namespace ShortestDecimal

/-- The positive number `a * 10 ^ s`, compared with `b * 2 ^ t`. -/
def compareScaled (a : Nat) (s : Int) (b : Nat) (t : Int) : Ordering :=
  compare (a * Nat.pow 10 s.toNat * Nat.pow 2 (-t).toNat)
    (b * Nat.pow 2 t.toNat * Nat.pow 10 (-s).toNat)

/-- The whole part of `b * 2 ^ t / 10 ^ s`. -/
def quotientScaled (b : Nat) (t s : Int) : Nat :=
  b * Nat.pow 2 t.toNat * Nat.pow 10 (-s).toNat / (Nat.pow 2 (-t).toNat * Nat.pow 10 s.toNat)

/-- The place `p` of the decimal point before the first digit of `b * 2 ^ t`, so that the number
lies between `10 ^ (p - 1)` and `10 ^ p`. -/
def pointPlace (b : Nat) (t : Int) : Int :=
  let above := (Numeral.digits 10 (b * Nat.pow 2 t.toNat)).length
  let below := (Numeral.digits 10 (Nat.pow 2 (-t).toNat)).length
  let guess : Int := above - below
  if compareScaled 1 guess b t = .gt then guess else guess + 1

/-- The reals that round to `m * 2 ^ q`, in units of `2 ^ (q - 2)`. Below a power of two the next
number is only half as far away. -/
def interval (m : Nat) (q : Int) : Nat × Nat :=
  (if m = Binary64.hiddenBit ∧ -1074 < q then 4 * m - 1 else 4 * m - 2, 4 * m + 2)

/-- Whether `k * 10 ^ s` rounds to `m * 2 ^ q`. -/
def readsBack (m : Nat) (q : Int) (k : Nat) (s : Int) : Bool :=
  let ends := interval m q
  let low := compareScaled k s ends.1 (q - 2)
  let high := compareScaled k s ends.2 (q - 2)
  if m % 2 = 0 then low != .lt && high != .gt else low == .gt && high == .lt

/-- The neighbour of `m * 2 ^ q` among the multiples of `10 ^ s` that reads back, the nearer one if
both do and the even one if they are equally near. -/
def neighbour? (m : Nat) (q s : Int) : Option Nat :=
  let k := quotientScaled m q s
  match readsBack m q k s, readsBack m q (k + 1) s with
  | false, false => none
  | true, false => some k
  | false, true => some (k + 1)
  | true, true =>
    match compareScaled (2 * k + 1) s (2 * m) q with
    | .lt => some (k + 1)
    | .gt => some k
    | .eq => some (if k % 2 = 0 then k else k + 1)

/-- The first grid, from `count` digits on, on which a neighbour reads back. -/
def search (m : Nat) (q place : Int) : Nat → Nat → Nat × Int
  | 0, count => (quotientScaled m q (place - count), place - count)
  | fuel + 1, count =>
    match neighbour? m q (place - count) with
    | some k => (k, place - count)
    | none => search m q place fuel (count + 1)

/-- The digits of the shortest decimal of `m * 2 ^ q` without zeros at the end, and the place of
the point relative to the first of them. -/
def ofParts (m : Nat) (q : Int) : List Nat × Int :=
  let (k, s) := search m q (pointPlace m q) 17 1
  let ds := Numeral.digits 10 k
  ((ds.reverse.dropWhile (· = 0)).reverse, ds.length + s)

end ShortestDecimal

/-- The choices of a format for decimals. -/
structure DecimalLayout where
  /-- The least place of the point that is written positionally. -/
  leastPlace : Int
  /-- The greatest place of the point that is written positionally. -/
  greatestPlace : Int
  /-- The least number of digits of an exponent. -/
  exponentWidth : Nat
  /-- The text of the infinite number. -/
  infinity : String
  /-- The text of what is no number. -/
  notANumber : String

namespace DecimalLayout

/-- The text of a positive number of the given digits and place of the point. A positional numeral
has a digit on both sides of the point. -/
def renderDigits (l : DecimalLayout) (ds : List Nat) (place : Int) : List Char :=
  let cs := ds.map Numeral.upperDigit
  if place < l.leastPlace ∨ l.greatestPlace < place then
    let exponent := place - 1
    let mark := if exponent < 0 then '-' else '+'
    let fraction := if cs.length ≤ 1 then [] else '.' :: cs.drop 1
    cs.take 1 ++ fraction ++
      'e' :: mark :: (Numeral.decimalPadded l.exponentWidth exponent.natAbs).toList
  else if place ≤ 0 then
    '0' :: '.' :: List.replicate place.natAbs '0' ++ cs
  else
    let whole := cs.take place.natAbs
    let fraction := cs.drop place.natAbs
    whole ++ List.replicate (place.natAbs - cs.length) '0' ++
      '.' :: (if fraction.isEmpty then ['0'] else fraction)

/-- The text of a binary64 number. -/
def render (l : DecimalLayout) : Binary64 → String
  | .nan => l.notANumber
  | .infinite negative => (if negative then "-" else "") ++ l.infinity
  | .finite negative 0 _ => if negative then "-0.0" else "0.0"
  | .finite negative m q =>
    let (ds, place) := ShortestDecimal.ofParts m q
    (if negative then "-" else "") ++ String.ofList (l.renderDigits ds place)

end DecimalLayout

end Chip8
