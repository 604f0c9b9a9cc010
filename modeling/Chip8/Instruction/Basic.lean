/-!
# Instructions

The instructions of the language and the words that stand for them. A word is read by its leading
hexadecimal digit; some groups are then told apart by their last digit or by their last two. Every
word is an instruction: one that matches no pattern is `Instruction.unknown`.

The fields of a word are named after their digits: in `0xAxyn` the digits `x` and `y` are registers
and `n` is a count, the last two digits are the byte `nn` and the last three the address `nnn`.

## Main definitions

* `Word.x`, `Word.y`, `Word.n`, `Word.nn`, `Word.nnn` — the fields of a word
* `ArithmeticOp`, `SkipTest` — the two families of instructions that share their execution
* `Instruction` — what a machine can be told to do
* `Instruction.ofWord` — the instruction of a word

## Main results

* `Instruction.ofWord_eq_waitKey_iff` — the words that wait for a key
-/

namespace Chip8

/-- A register, by its hexadecimal digit. -/
abbrev Register := Fin 16

/-- The register that a jump with an offset adds. -/
abbrev Register.zero : Register := 0

/-- The register that holds flags. -/
abbrev Register.flag : Register := 15

/-- The number of return addresses that the stack can hold. -/
abbrev stackDepth : Nat := 16

/-! ### Fields of a word -/

namespace Word

/-- The second hexadecimal digit. -/
def x (w : UInt16) : Register := ⟨w.toNat / 256 % 16, Nat.mod_lt _ (by decide)⟩

/-- The third hexadecimal digit. -/
def y (w : UInt16) : Register := ⟨w.toNat / 16 % 16, Nat.mod_lt _ (by decide)⟩

/-- The last hexadecimal digit. -/
def n (w : UInt16) : Fin 16 := ⟨w.toNat % 16, Nat.mod_lt _ (by decide)⟩

/-- The last two hexadecimal digits. -/
def nn (w : UInt16) : UInt8 := UInt8.ofNat (w.toNat % 256)

/-- The last three hexadecimal digits. -/
def nnn (w : UInt16) : UInt16 := UInt16.ofNat (w.toNat % 4096)

end Word

/-! ### Instructions -/

/-- The operations on two registers, `8xy0` to `8xyE`. -/
inductive ArithmeticOp where
  | copy | or | and | xor | add | sub | shiftRight | subReverse | shiftLeft
  deriving DecidableEq, Repr

/-- The conditions under which the next instruction is skipped. -/
inductive SkipTest where
  | eqByte (x : Register) (nn : UInt8)
  | neByte (x : Register) (nn : UInt8)
  | eqRegister (x y : Register)
  | neRegister (x y : Register)
  | held (x : Register)
  | notHeld (x : Register)
  deriving DecidableEq, Repr

/-- An instruction with its operands. -/
inductive Instruction where
  /-- `00E0`: switch the screen off. -/
  | clear
  /-- `00EE`: return from a subroutine. -/
  | ret
  /-- `0nnn`: a routine of the host machine, which is not available. -/
  | sys (address : UInt16)
  /-- `1nnn`: jump. -/
  | jump (address : UInt16)
  /-- `2nnn`: call a subroutine. -/
  | call (address : UInt16)
  /-- `3xnn`, `4xnn`, `5xy0`, `9xy0`, `Ex9E`, `ExA1`: skip the next instruction if a test holds. -/
  | skip (test : SkipTest)
  /-- `6xnn`: set a register. -/
  | loadByte (x : Register) (nn : UInt8)
  /-- `7xnn`: add to a register, without a flag. -/
  | addByte (x : Register) (nn : UInt8)
  /-- `8xy0` to `8xyE`: combine two registers. -/
  | arithmetic (op : ArithmeticOp) (x y : Register)
  /-- `Annn`: set the index. -/
  | loadIndex (address : UInt16)
  /-- `Bnnn`: jump to an address plus the first register. -/
  | jumpOffset (address : UInt16)
  /-- `Cxnn`: a random byte, masked. -/
  | random (x : Register) (nn : UInt8)
  /-- `Dxyn`: draw a sprite. -/
  | draw (x y : Register) (n : Fin 16)
  /-- `Fx07`: read the delay timer. -/
  | readDelay (x : Register)
  /-- `Fx0A`: wait for a key. -/
  | waitKey (x : Register)
  /-- `Fx15`: set the delay timer. -/
  | setDelay (x : Register)
  /-- `Fx18`: set the sound timer. -/
  | setSound (x : Register)
  /-- `Fx1E`: add to the index. -/
  | addIndex (x : Register)
  /-- `Fx29`: set the index to a glyph. -/
  | glyph (x : Register)
  /-- `Fx33`: store the three decimal digits of a register. -/
  | decimal (x : Register)
  /-- `Fx55`: store the registers up to `x`. -/
  | store (x : Register)
  /-- `Fx65`: load the registers up to `x`. -/
  | load (x : Register)
  /-- A word that is no instruction. -/
  | unknown (word : UInt16)
  deriving DecidableEq, Repr

/-! ### Words -/

/-- The operation of the last digit of a word of the group `8xyn`. -/
def ArithmeticOp.ofDigit? : Nat → Option ArithmeticOp
  | 0x0 => some .copy
  | 0x1 => some .or
  | 0x2 => some .and
  | 0x3 => some .xor
  | 0x4 => some .add
  | 0x5 => some .sub
  | 0x6 => some .shiftRight
  | 0x7 => some .subReverse
  | 0xE => some .shiftLeft
  | _ => none

namespace Instruction

/-- The instruction of the last two digits of a word of the group `Fxnn`. -/
def ofMiscByte? (x : Register) : Nat → Option Instruction
  | 0x07 => some (.readDelay x)
  | 0x0A => some (.waitKey x)
  | 0x15 => some (.setDelay x)
  | 0x18 => some (.setSound x)
  | 0x1E => some (.addIndex x)
  | 0x29 => some (.glyph x)
  | 0x33 => some (.decimal x)
  | 0x55 => some (.store x)
  | 0x65 => some (.load x)
  | _ => none

/-- The instruction of a word. -/
def ofWord (w : UInt16) : Instruction :=
  let x := Word.x w
  let y := Word.y w
  match w.toNat / 4096 with
  | 0x0 => if w = 0x00E0 then .clear else if w = 0x00EE then .ret else .sys (Word.nnn w)
  | 0x1 => .jump (Word.nnn w)
  | 0x2 => .call (Word.nnn w)
  | 0x3 => .skip (.eqByte x (Word.nn w))
  | 0x4 => .skip (.neByte x (Word.nn w))
  | 0x5 => if Word.n w = 0 then .skip (.eqRegister x y) else .unknown w
  | 0x6 => .loadByte x (Word.nn w)
  | 0x7 => .addByte x (Word.nn w)
  | 0x8 =>
    match ArithmeticOp.ofDigit? (w.toNat % 16) with
    | some op => .arithmetic op x y
    | none => .unknown w
  | 0x9 => if Word.n w = 0 then .skip (.neRegister x y) else .unknown w
  | 0xA => .loadIndex (Word.nnn w)
  | 0xB => .jumpOffset (Word.nnn w)
  | 0xC => .random x (Word.nn w)
  | 0xD => .draw x y (Word.n w)
  | 0xE =>
    if w.toNat % 256 = 0x9E then .skip (.held x)
    else if w.toNat % 256 = 0xA1 then .skip (.notHeld x)
    else .unknown w
  | _ => (ofMiscByte? x (w.toNat % 256)).getD (.unknown w)

/-- Whether a word waits for a key: its digits are `Fx0A`. -/
def IsKeyWait (w : UInt16) : Prop := w.toNat / 4096 = 0xF ∧ w.toNat % 256 = 0x0A

instance (w : UInt16) : Decidable (IsKeyWait w) := inferInstanceAs (Decidable (_ ∧ _))

/-- The words that wait for a key are those of the form `Fx0A`. -/
theorem ofWord_eq_waitKey_iff {w : UInt16} {x : Register} :
    ofWord w = .waitKey x ↔ IsKeyWait w ∧ x = Word.x w := by
  have hlt : w.toNat / 4096 < 16 := by
    have := w.toNat_lt
    omega
  unfold ofWord IsKeyWait
  simp only
  split <;> rename_i h
  · split
    · simp [h]
    · split <;> simp [h]
  · simp [h]
  · simp [h]
  · simp [h]
  · simp [h]
  · split <;> simp [h]
  · simp [h]
  · simp [h]
  · split <;> simp [h]
  · split <;> simp [h]
  · simp [h]
  · simp [h]
  · simp [h]
  · simp [h]
  · split
    · simp [h]
    · split <;> simp [h]
  · have hf : w.toNat / 4096 = 0xF := by grind
    unfold ofMiscByte?
    split <;> grind

end Instruction

end Chip8
