/-!
# Mersenne Twister

The generator of pseudo-random words with a state of 624 words and a period of `2 ^ 19937 - 1`,
seeded from an integer of any size, and the bytes drawn from it.

A byte is drawn from the nine high bits of a word: words whose bits give 256 or more are passed
over. The highest bit of the words is a linear recurrence of order 19937 that is not constant, so it
is never set in more than 19937 words in a row, which bounds the search for the next byte.

## Main definitions

* `MersenneTwister` — the state of the generator
* `MersenneTwister.ofSeed` — the generator of a seed
* `MersenneTwister.nextWord`, `MersenneTwister.nextByte` — the next output
-/

namespace Chip8

/-- The words of the state, and the number of them that have been put out. -/
structure MersenneTwister where
  words : Array UInt32
  used : Nat
  deriving DecidableEq

namespace MersenneTwister

/-- The number of words of the state. -/
abbrev stateSize : Nat := 624

/-- A generator that was never seeded. Seeding sets every word, so those that it has are of no
account. -/
def unseeded : MersenneTwister := ⟨#[], stateSize⟩

/-! ### Seeding -/

/-- A word mixed with its own two high bits. -/
def mixed (word : UInt32) : UInt32 := word ^^^ (word >>> 30)

/-- The first state from one word: each word is a multiple of the one before, mixed, plus its
index. -/
def expand (seed : UInt32) : Array UInt32 :=
  (List.range (stateSize - 1)).foldl
    (fun (words : Array UInt32) i =>
      words.push (1812433253 * mixed (words.getD i 0) + UInt32.ofNat (i + 1))) #[seed]

/-- A place in a pass over the state: the words, and the index to change next. The first word takes
over the last one whenever the pass comes to the end. -/
structure Pass where
  words : Array UInt32
  index : Nat

namespace Pass

/-- Changes the word at the index to `f` of it and of its mixed predecessor, and moves on. -/
def step (p : Pass) (f : UInt32 → UInt32 → UInt32) : Pass :=
  let value := f (p.words.getD p.index 0) (mixed (p.words.getD (p.index - 1) 0))
  let words := p.words.setIfInBounds p.index value
  if p.index + 1 < stateSize then ⟨words, p.index + 1⟩
  else ⟨words.setIfInBounds 0 (words.getD (stateSize - 1) 0), 1⟩

end Pass

/-- The words of an integer without its sign, the low word first; zero has one word. -/
def keyWords (seed : Int) : List UInt32 :=
  let n := seed.natAbs
  (List.range (max 1 ((n.log2 + 32) / 32))).map fun i => UInt32.ofNat (n >>> (32 * i))

/-- The state of a list of key words: one pass that folds the key in, as long as the longer of key
and state, then one pass that spreads it. -/
def ofKey (key : List UInt32) : MersenneTwister :=
  let size := max 1 key.length
  let keys := key.toArray
  let start : Pass := ⟨expand 19650218, 1⟩
  let folded := (List.range (max stateSize size)).foldl
    (fun (p : Pass) k =>
      let j := k % size
      p.step fun word before =>
        (word ^^^ (before * 1664525)) + keys.getD j 0 + UInt32.ofNat j) start
  let spread := (List.range (stateSize - 1)).foldl
    (fun (p : Pass) _ =>
      p.step fun word before => (word ^^^ (before * 1566083941)) - UInt32.ofNat p.index) folded
  ⟨spread.words.setIfInBounds 0 0x80000000, stateSize⟩

/-- The generator of a seed. A seed and its opposite give the same generator. -/
def ofSeed (seed : Int) : MersenneTwister := ofKey (keyWords seed)

/-! ### Output -/

/-- The next state: each word is made of the high bit of its old value, the low bits of its
successor, and the word 397 places on. -/
def renew (words : Array UInt32) : Array UInt32 :=
  (List.range stateSize).foldl
    (fun (ws : Array UInt32) i =>
      let y := (ws.getD i 0 &&& 0x80000000) |||
        (ws.getD ((i + 1) % stateSize) 0 &&& 0x7fffffff)
      let twist : UInt32 := if y &&& 1 = 0 then 0 else 0x9908b0df
      ws.setIfInBounds i (ws.getD ((i + 397) % stateSize) 0 ^^^ (y >>> 1) ^^^ twist)) words

/-- The output of a word of the state. -/
def temper (word : UInt32) : UInt32 :=
  let a := word ^^^ (word >>> 11)
  let b := a ^^^ ((a <<< 7) &&& 0x9d2c5680)
  let c := b ^^^ ((b <<< 15) &&& 0xefc60000)
  c ^^^ (c >>> 18)

/-- The next word of the generator. -/
def nextWord (g : MersenneTwister) : UInt32 × MersenneTwister :=
  let ready := if g.used < stateSize then g else ⟨renew g.words, 0⟩
  (temper (ready.words.getD ready.used 0), { ready with used := ready.used + 1 })

/-- The next byte among the given number of words. -/
def nextByteWithin : Nat → MersenneTwister → UInt8 × MersenneTwister
  | 0, g => (0, g)
  | fuel + 1, g =>
    let (word, rest) := g.nextWord
    let candidate := word >>> 23
    if candidate < 256 then (candidate.toUInt8, rest) else nextByteWithin fuel rest

/-- The next byte of the generator. -/
def nextByte (g : MersenneTwister) : UInt8 × MersenneTwister := nextByteWithin 19938 g

end MersenneTwister

end Chip8
