import Chip8.Instruction.Basic
import Chip8.Text.Numeral

/-!
# Operations

An operation is the record in which a host sees a decoded word: its kind, its assembly text and its
fields. The text is the mnemonic followed by the operands, and depends on the instruction alone.

## Main definitions

* `Kind` — the kinds of instructions, with the name and the mnemonic of each
* `Instruction.operands` — the operands of an instruction as texts
* `Operation` — the record, and `Operation.render`, its assembly text
* `Operation.ofWord` — the record of a word
-/

namespace Chip8

/-! ### Kinds -/

/-- The kinds of instructions. -/
inductive Kind where
  | clear | ret | sys | jump | call
  | skipEqByte | skipNeByte | skipEqRegister | loadByte | addByte
  | copy | or | and | xor | add | sub | shiftRight | subReverse | shiftLeft
  | skipNeRegister | loadIndex | jumpOffset | random | draw | skipHeld | skipNotHeld
  | readDelay | waitKey | setDelay | setSound | addIndex | glyph | decimal | store | load
  | unknown
  deriving DecidableEq, Repr

namespace Kind

/-- All kinds. -/
def all : List Kind :=
  [.clear, .ret, .sys, .jump, .call, .skipEqByte, .skipNeByte, .skipEqRegister, .loadByte,
   .addByte, .copy, .or, .and, .xor, .add, .sub, .shiftRight, .subReverse, .shiftLeft,
   .skipNeRegister, .loadIndex, .jumpOffset, .random, .draw, .skipHeld, .skipNotHeld, .readDelay,
   .waitKey, .setDelay, .setSound, .addIndex, .glyph, .decimal, .store, .load, .unknown]

/-- The name of a kind: its mnemonic and what tells it apart from others of that mnemonic. -/
def name : Kind → String
  | .clear => "CLS"
  | .ret => "RET"
  | .sys => "SYS"
  | .jump => "JP"
  | .call => "CALL"
  | .skipEqByte => "SE_VX_NN"
  | .skipNeByte => "SNE_VX_NN"
  | .skipEqRegister => "SE_VX_VY"
  | .loadByte => "LD_VX_NN"
  | .addByte => "ADD_VX_NN"
  | .copy => "LD_VX_VY"
  | .or => "OR"
  | .and => "AND"
  | .xor => "XOR"
  | .add => "ADD_VX_VY"
  | .sub => "SUB"
  | .shiftRight => "SHR"
  | .subReverse => "SUBN"
  | .shiftLeft => "SHL"
  | .skipNeRegister => "SNE_VX_VY"
  | .loadIndex => "LD_I"
  | .jumpOffset => "JP_V0"
  | .random => "RND"
  | .draw => "DRW"
  | .skipHeld => "SKP"
  | .skipNotHeld => "SKNP"
  | .readDelay => "LD_VX_DT"
  | .waitKey => "LD_VX_K"
  | .setDelay => "LD_DT_VX"
  | .setSound => "LD_ST_VX"
  | .addIndex => "ADD_I_VX"
  | .glyph => "LD_F_VX"
  | .decimal => "LD_B_VX"
  | .store => "LD_MEM_VX"
  | .load => "LD_VX_MEM"
  | .unknown => "UNKNOWN"

/-- The kind of a name. -/
def ofName? (s : String) : Option Kind := all.find? fun k => k.name = s

/-- The mnemonic of a kind. -/
def mnemonic : Kind → String
  | .clear => "CLS"
  | .ret => "RET"
  | .sys => "SYS"
  | .jump | .jumpOffset => "JP"
  | .call => "CALL"
  | .skipEqByte | .skipEqRegister => "SE"
  | .skipNeByte | .skipNeRegister => "SNE"
  | .addByte | .add | .addIndex => "ADD"
  | .or => "OR"
  | .and => "AND"
  | .xor => "XOR"
  | .sub => "SUB"
  | .shiftRight => "SHR"
  | .subReverse => "SUBN"
  | .shiftLeft => "SHL"
  | .random => "RND"
  | .draw => "DRW"
  | .skipHeld => "SKP"
  | .skipNotHeld => "SKNP"
  | .loadByte | .copy | .loadIndex | .readDelay | .waitKey | .setDelay | .setSound | .glyph
  | .decimal | .store | .load => "LD"
  | .unknown => "UNKNOWN"

end Kind

/-- The kind of an operation on two registers. -/
def ArithmeticOp.kind : ArithmeticOp → Kind
  | .copy => .copy
  | .or => .or
  | .and => .and
  | .xor => .xor
  | .add => .add
  | .sub => .sub
  | .shiftRight => .shiftRight
  | .subReverse => .subReverse
  | .shiftLeft => .shiftLeft

/-- The kind of a skip. -/
def SkipTest.kind : SkipTest → Kind
  | .eqByte _ _ => .skipEqByte
  | .neByte _ _ => .skipNeByte
  | .eqRegister _ _ => .skipEqRegister
  | .neRegister _ _ => .skipNeRegister
  | .held _ => .skipHeld
  | .notHeld _ => .skipNotHeld

/-! ### Operand texts -/

/-- The text of a register. -/
def registerText (x : Register) : String := "V" ++ Numeral.hex 1 x.val

/-- The text of a byte. -/
def byteText (nn : UInt8) : String := "0x" ++ Numeral.hex 2 nn.toNat

/-- The text of an address of three digits. -/
def addressText (nnn : UInt16) : String := "0x" ++ Numeral.hex 3 nnn.toNat

/-- The text of a word that is no instruction. In the groups that have instructions of their own it
shows the digits that tell those apart, elsewhere the whole word. -/
def unknownText (w : UInt16) : String :=
  match w.toNat / 4096 with
  | 0x8 => "8xx" ++ Numeral.hex 1 (w.toNat % 16)
  | 0xE => "Ex" ++ Numeral.hex 2 (w.toNat % 256)
  | 0xF => "Fx" ++ Numeral.hex 2 (w.toNat % 256)
  | _ => Numeral.hex 4 w.toNat

/-- The operands of a skip. -/
def SkipTest.operands : SkipTest → List String
  | .eqByte x nn | .neByte x nn => [registerText x, byteText nn]
  | .eqRegister x y | .neRegister x y => [registerText x, registerText y]
  | .held x | .notHeld x => [registerText x]

/-- The operands of an operation on two registers. A shift shows only its target. -/
def ArithmeticOp.operands (op : ArithmeticOp) (x y : Register) : List String :=
  match op with
  | .shiftRight | .shiftLeft => [registerText x]
  | _ => [registerText x, registerText y]

namespace Instruction

/-- The kind of an instruction. -/
def kind : Instruction → Kind
  | .clear => .clear
  | .ret => .ret
  | .sys _ => .sys
  | .jump _ => .jump
  | .call _ => .call
  | .skip test => test.kind
  | .loadByte _ _ => .loadByte
  | .addByte _ _ => .addByte
  | .arithmetic op _ _ => op.kind
  | .loadIndex _ => .loadIndex
  | .jumpOffset _ => .jumpOffset
  | .random _ _ => .random
  | .draw _ _ _ => .draw
  | .readDelay _ => .readDelay
  | .waitKey _ => .waitKey
  | .setDelay _ => .setDelay
  | .setSound _ => .setSound
  | .addIndex _ => .addIndex
  | .glyph _ => .glyph
  | .decimal _ => .decimal
  | .store _ => .store
  | .load _ => .load
  | .unknown _ => .unknown

/-- The operands of an instruction as texts. -/
def operands : Instruction → List String
  | .clear | .ret => []
  | .sys a | .jump a | .call a => [addressText a]
  | .skip test => test.operands
  | .loadByte x nn | .addByte x nn | .random x nn => [registerText x, byteText nn]
  | .arithmetic op x y => op.operands x y
  | .loadIndex a => ["I", addressText a]
  | .jumpOffset a => ["V0", addressText a]
  | .draw x y n => [registerText x, registerText y, Numeral.decimal n.val]
  | .readDelay x => [registerText x, "DT"]
  | .waitKey x => [registerText x, "K"]
  | .setDelay x => ["DT", registerText x]
  | .setSound x => ["ST", registerText x]
  | .addIndex x => ["I", registerText x]
  | .glyph x => ["F", registerText x]
  | .decimal x => ["B", registerText x]
  | .store x => ["[I]", registerText x]
  | .load x => [registerText x, "[I]"]
  | .unknown w => [unknownText w]

end Instruction

/-! ### Operations -/

/-- A decoded word as a host sees it. -/
structure Operation where
  opcode : Int
  kind : Kind
  mnemonic : String
  operands : List String := []
  x : Nat := 0
  y : Nat := 0
  n : Nat := 0
  nn : Nat := 0
  nnn : Nat := 0
  /-- The number of bytes of the instruction. -/
  length : Nat := 2
  deriving DecidableEq, Repr

namespace Operation

/-- The word in hexadecimal digits, at least four of them. -/
def opcodeHex (op : Operation) : String := Numeral.hexInt 4 op.opcode

/-- The assembly text: the mnemonic, and the operands separated by commas if there are any. -/
def render (op : Operation) : String :=
  if op.operands.isEmpty then op.mnemonic
  else op.mnemonic ++ " " ++ String.intercalate ", " op.operands

/-- The record of a word. -/
def ofWord (w : UInt16) : Operation :=
  let i := Instruction.ofWord w
  { opcode := w.toNat
    kind := i.kind
    mnemonic := i.kind.mnemonic
    operands := i.operands
    x := (Word.x w).val
    y := (Word.y w).val
    n := (Word.n w).val
    nn := (Word.nn w).toNat
    nnn := (Word.nnn w).toNat }

/-- The record of the low sixteen bits of an integer. -/
def ofInt (n : Int) : Operation := ofWord (UInt16.ofInt n)

end Operation

end Chip8
