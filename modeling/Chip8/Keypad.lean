import Chip8.Error
import Chip8.Position

/-!
# Keypad

The sixteen keys, which of them are held down, and the key that a wait for a release has latched.

A wait for a key is polled. Without release it completes as soon as a key is held, with the least
one. With release it first latches the least held key and completes when that key is up again. The
latch is an index of the keys. One that was restored may denote no key; a poll that has to look at
it is refused.

## Main definitions

* `Keypad` — held keys and latch
* `Keypad.press`, `Keypad.release` — a key goes down or up
* `Keypad.reset` — all keys are up
* `Keypad.poll` — one look at the keys by a waiting instruction
-/

namespace Chip8

/-- The number of keys. -/
abbrev keyCount : Nat := 16

/-- A key, by its hexadecimal digit. -/
abbrev Key := Fin keyCount

/-- The state of the keys. -/
structure Keypad where
  held : Vector Bool keyCount
  latch : Option Int
  deriving DecidableEq

namespace Keypad

/-- No key is held or latched. -/
def blank : Keypad := ⟨Vector.replicate keyCount false, none⟩

/-- The key of a number, if there is one. -/
def key? (n : Int) : Option Key :=
  if h : 0 ≤ n ∧ n < keyCount then some ⟨n.toNat, by omega⟩ else none

/-- The keypad with a key marked as held or not; other numbers than those of keys do nothing. -/
def setHeld (k : Keypad) (n : Int) (down : Bool) : Keypad :=
  match key? n with
  | some key => { k with held := k.held.set key down }
  | none => k

/-- A key goes down. -/
def press (k : Keypad) (n : Int) : Keypad := k.setHeld n true

/-- A key goes up. -/
def release (k : Keypad) (n : Int) : Keypad := k.setHeld n false

/-- Whether a key is held. -/
def isHeld (k : Keypad) (key : Key) : Bool := k.held[key]

/-- The key of the low hexadecimal digit of a number. -/
def keyOfDigit (n : Int) : Key :=
  ⟨(n % 16).toNat, by
    have h₁ := Int.emod_nonneg n (b := 16) (by omega)
    have h₂ := Int.emod_lt_of_pos n (b := 16) (by omega)
    show _ < 16
    omega⟩

/-- Whether the key of the low hexadecimal digit of a number is held. -/
def isPressed (k : Keypad) (n : Int) : Bool := k.isHeld (keyOfDigit n)

/-- The least held key. -/
def firstHeld? (k : Keypad) : Option Key := (List.finRange keyCount).find? k.isHeld

/-- The number of the least held key. -/
def firstNumber? (k : Keypad) : Option Int := k.firstHeld?.map fun key => (key.val : Int)

/-- No key is held or latched any more. -/
def reset (k : Keypad) : Keypad :=
  { k with held := Vector.replicate keyCount false, latch := none }

/-- The keypad of the given states, which must be as many as there are keys. -/
def restore (states : List Bool) (latch : Option Int) : Except Error Keypad :=
  if h : states.toArray.size = keyCount then .ok ⟨⟨states.toArray, h⟩, latch⟩
  else .error (.keyCount states.length)

/-- One look at the keys by a waiting instruction: the number that completes the wait, if one
does. -/
def poll (k : Keypad) (onRelease : Bool) : Except Error (Keypad × Option Int) :=
  if onRelease then
    match k.latch with
    | none => .ok ({ k with latch := k.firstNumber? }, none)
    | some n =>
      match position? keyCount n with
      | some key => .ok (if k.isHeld key then (k, none) else ({ k with latch := none }, some n))
      | none => .error .outOfRange
  else .ok (k, k.firstNumber?)

end Keypad

end Chip8
