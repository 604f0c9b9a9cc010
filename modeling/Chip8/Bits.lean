/-!
# Bitwise operations on integers

Conjunction, disjunction and exclusive disjunction of integers of any size, bit by bit. A negative
integer has infinitely many leading ones: `-(n + 1)` is the complement of `n`, so every operation
comes down to one on natural numbers.

## Main definitions

* `Bits.and`, `Bits.or`, `Bits.xor` — the operations

## Main results

* `Bits.and_natCast`, `Bits.or_natCast`, `Bits.xor_natCast` — on natural numbers they are the
  operations on natural numbers
-/

namespace Chip8

namespace Bits

/-- The bits of `m` that are not bits of `n`. -/
def without (m n : Nat) : Nat := m ^^^ (m &&& n)

/-- The bits that both integers have. -/
def and : Int → Int → Int
  | .ofNat m, .ofNat n => .ofNat (m &&& n)
  | .ofNat m, .negSucc n => .ofNat (without m n)
  | .negSucc m, .ofNat n => .ofNat (without n m)
  | .negSucc m, .negSucc n => .negSucc (m ||| n)

/-- The bits that one of two integers has. -/
def or : Int → Int → Int
  | .ofNat m, .ofNat n => .ofNat (m ||| n)
  | .ofNat m, .negSucc n => .negSucc (without n m)
  | .negSucc m, .ofNat n => .negSucc (without m n)
  | .negSucc m, .negSucc n => .negSucc (m &&& n)

/-- The bits that exactly one of two integers has. -/
def xor : Int → Int → Int
  | .ofNat m, .ofNat n => .ofNat (m ^^^ n)
  | .ofNat m, .negSucc n => .negSucc (m ^^^ n)
  | .negSucc m, .ofNat n => .negSucc (m ^^^ n)
  | .negSucc m, .negSucc n => .ofNat (m ^^^ n)

theorem and_natCast (m n : Nat) : and m n = ((m &&& n : Nat) : Int) := rfl

theorem or_natCast (m n : Nat) : or m n = ((m ||| n : Nat) : Int) := rfl

theorem xor_natCast (m n : Nat) : xor m n = ((m ^^^ n : Nat) : Int) := rfl

end Bits

end Chip8
