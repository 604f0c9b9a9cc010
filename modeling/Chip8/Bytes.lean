import Chip8.Error

/-!
# Byte strings

Byte strings are lists of bytes. A list of integers is one if all of them are bytes; big-endian
words and fields of a fixed size are the parts of which binary records are made.

## Main definitions

* `Bytes.ofInts` — the byte string of a list of integers
* `Bytes.fit` — a byte string cut or zero-padded to a size
* `Bytes.ofWord`, `Bytes.toWords` — words as two bytes each
-/

namespace Chip8

/-- A byte string. -/
abbrev Bytes := List UInt8

namespace Bytes

/-- The byte of an integer. -/
def ofInt (n : Int) : Except Error UInt8 :=
  if 0 ≤ n ∧ n < 256 then .ok (UInt8.ofInt n) else .error .notByte

/-- The byte string of a list of integers, which must all be bytes. -/
def ofInts : List Int → Except Error Bytes
  | [] => .ok []
  | n :: rest => do
    let b ← ofInt n
    let bs ← ofInts rest
    .ok (b :: bs)

/-- A byte string cut or zero-padded to a size. -/
def fit (size : Nat) (bs : Bytes) : Bytes := bs.take size ++ List.replicate (size - bs.length) 0

/-- The two bytes of a word, the high one first. -/
def ofWord (w : Nat) : Bytes := [UInt8.ofNat (w / 256), UInt8.ofNat w]

/-- The word of two bytes. -/
def wordOf (high low : UInt8) : Nat := high.toNat * 256 + low.toNat

/-- The words of the pairs of bytes, without a single byte at the end. -/
def toWords : Bytes → List Nat
  | high :: low :: rest => wordOf high low :: toWords rest
  | _ => []

end Bytes

end Chip8
