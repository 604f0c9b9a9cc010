import Chip8.Disassembly
import Chip8.Proofs.Text.Numeral
import Mathlib.Data.List.TakeWhile

/-!
# Assembly text read back

A text shows the instruction that it is the text of. It is taken apart at the first blank and at the
commas, the operands are told apart by their first characters, and mnemonic and operands together
give the instruction. Texts that share a mnemonic differ in the number or in the forms of their
operands, so nothing else is needed.

A text does not show everything. Shifts leave out the register that only some dialects read, and the
words that are no instruction show digits that do not tell the word. What is shown is therefore an
instruction of its own: a shift whose registers are the same, and none for such words.

## Main definitions

* `Operand`, `Operand.read` — the forms of operands, and the operand of a text
* `Instruction.assemble`, `Instruction.ofText?` — the instruction of a mnemonic with its operands,
  and of a text
* `Instruction.shown` — what the text of an instruction shows

## Main results

* `Operation.mnemonicOf_render`, `Operation.operandsOf_render` — texts are taken apart
* `Instruction.assemble_operands` — the operands tell the instruction
* `Instruction.ofText?_disassemble` — the text of a word shows its instruction
-/

namespace Chip8

/-! ### Taking texts apart -/

/-- What stands before the first blank. -/
def mnemonicOf (text : List Char) : List Char := text.takeWhile fun c => c != ' '

/-- What stands behind the first blank, cut at the commas. Other blanks do not count. -/
def operandsOf (text : List Char) : List (List Char) :=
  match text.dropWhile fun c => c != ' ' with
  | [] => []
  | _ :: rest => (rest.filter fun c => c != ' ').splitOn ','

/-- A text of one piece, without blanks and commas. -/
def Solid (text : String) : Prop := ' ' ∉ text.toList ∧ ',' ∉ text.toList

instance (text : String) : Decidable (Solid text) := inferInstanceAs (Decidable (_ ∧ _))

theorem forall_of_blank_not_mem {cs : List Char} (h : ' ' ∉ cs) :
    ∀ c ∈ cs, (c != ' ') = true := by
  intro c hc
  simpa using fun hblank : c = ' ' => h (hblank ▸ hc)

/-- Without blanks, pieces are separated by commas only. -/
theorem filter_intercalate {pieces : List (List Char)} (h : ∀ piece ∈ pieces, ' ' ∉ piece) :
    ([',', ' '].intercalate pieces).filter (fun c => c != ' ') = [','].intercalate pieces := by
  induction pieces with
  | nil => rfl
  | cons piece rest ih =>
    have hfirst : piece.filter (fun c => c != ' ') = piece :=
      List.filter_eq_self.2 (forall_of_blank_not_mem (h piece List.mem_cons_self))
    cases rest with
    | nil => simpa using hfirst
    | cons next rest =>
      have hrest := ih fun p hp => h p (List.mem_cons_of_mem piece hp)
      rw [List.intercalate_cons_cons, List.intercalate_cons_cons, List.filter_append,
        List.filter_append, hfirst, hrest]
      rfl

namespace Operation

variable {op : Operation}

theorem toList_render_of_ne_nil (h : op.operands ≠ []) :
    op.render.toList =
      op.mnemonic.toList ++ ' ' :: [',', ' '].intercalate (op.operands.map String.toList) := by
  have hsome : ¬ op.operands.isEmpty = true := fun hnone => h (List.isEmpty_iff.1 hnone)
  rw [render, if_neg hsome, String.toList_append, String.toList_append, String.toList_intercalate,
    List.append_assoc]
  rfl

theorem render_of_nil (h : op.operands = []) : op.render = op.mnemonic := by
  rw [render, h]
  rfl

/-- **The mnemonic of a text** is told if there are no blanks in it. -/
theorem mnemonicOf_render (h : ' ' ∉ op.mnemonic.toList) :
    mnemonicOf op.render.toList = op.mnemonic.toList := by
  have hkeep := forall_of_blank_not_mem h
  by_cases hnone : op.operands = []
  · rw [mnemonicOf, render_of_nil hnone]
    exact List.takeWhile_eq_self_iff.2 hkeep
  · rw [mnemonicOf, toList_render_of_ne_nil hnone, List.takeWhile_append_of_pos hkeep]
    exact List.append_nil _

/-- **The operands of a text** are told if they are of one piece. -/
theorem operandsOf_render (h : ' ' ∉ op.mnemonic.toList)
    (hsolid : ∀ text ∈ op.operands, Solid text) :
    operandsOf op.render.toList = op.operands.map String.toList := by
  have hkeep := forall_of_blank_not_mem h
  by_cases hnone : op.operands = []
  · have hdrop : op.mnemonic.toList.dropWhile (fun c => c != ' ') = [] :=
      List.dropWhile_eq_nil_iff.2 hkeep
    rw [operandsOf, render_of_nil hnone, hdrop, hnone]
    rfl
  · have hblank : ∀ piece ∈ op.operands.map String.toList, ' ' ∉ piece :=
      List.forall_mem_map.2 fun text htext => (hsolid text htext).1
    have hcomma : ∀ piece ∈ op.operands.map String.toList, ',' ∉ piece :=
      List.forall_mem_map.2 fun text htext => (hsolid text htext).2
    have hdrop : op.render.toList.dropWhile (fun c => c != ' ') =
        ' ' :: [',', ' '].intercalate (op.operands.map String.toList) := by
      rw [toList_render_of_ne_nil hnone, List.dropWhile_append_of_pos hkeep]
      rfl
    rw [operandsOf, hdrop]
    dsimp only
    rw [filter_intercalate hblank]
    exact List.splitOn_intercalate ',' hcomma (mt List.map_eq_nil_iff.1 hnone)

end Operation

/-! ### Operands -/

/-- The forms of operands. -/
inductive Operand where
  | register (x : Register)
  | number (n : Nat)
  | name (text : String)
  deriving DecidableEq

namespace Operand

/-- The operand of a text. Registers begin with a letter of their own, hexadecimal numbers with a
prefix, and what is left is a decimal number or a name. -/
def read : List Char → Operand
  | 'V' :: digits =>
    let n := Numeral.valueOf 16 digits
    if hn : n < 16 then .register ⟨n, hn⟩ else .number n
  | '0' :: 'x' :: digits => .number (Numeral.valueOf 16 digits)
  | text =>
    if text.all Char.isDigit then .number (Numeral.valueOf 10 text) else .name (.ofList text)

@[simp] theorem read_registerText (x : Register) : read (registerText x).toList = .register x := by
  have htext : (registerText x).toList = 'V' :: (Numeral.hex 1 x.val).toList := String.toList_append
  rw [htext, read]
  simp only [Numeral.valueOf_hex, x.isLt, dif_pos]

/-- Hexadecimal numbers are read whatever their width is. -/
theorem read_hex (width n : Nat) : read ("0x" ++ Numeral.hex width n).toList = .number n := by
  have htext : ("0x" ++ Numeral.hex width n).toList = '0' :: 'x' :: (Numeral.hex width n).toList :=
    String.toList_append
  rw [htext]
  exact congrArg number (Numeral.valueOf_hex width n)

@[simp] theorem read_byteText (nn : UInt8) : read (byteText nn).toList = .number nn.toNat :=
  read_hex 2 _

@[simp] theorem read_addressText (a : UInt16) : read (addressText a).toList = .number a.toNat :=
  read_hex 3 _

@[simp] theorem read_decimal :
    ∀ n : Fin 16, read (Numeral.decimal n.val).toList = .number n.val := by decide +kernel

theorem read_names :
    read ['I'] = .name "I" ∧ read ['[', 'I', ']'] = .name "[I]" ∧ read ['D', 'T'] = .name "DT" ∧
      read ['S', 'T'] = .name "ST" ∧ read ['K'] = .name "K" ∧ read ['F'] = .name "F" ∧
      read ['B'] = .name "B" := by decide

end Operand

/-! ### Solid operands -/

theorem solid_hex (width n : Nat) : Solid (Numeral.hex width n) := by
  have hdigit : ∀ d < 16, Numeral.upperDigit d ≠ ' ' ∧ Numeral.upperDigit d ≠ ',' := by decide
  constructor
  · intro hmem
    obtain ⟨d, hd, heq⟩ := Numeral.exists_of_mem_hex hmem
    exact (hdigit d hd).1 heq.symm
  · intro hmem
    obtain ⟨d, hd, heq⟩ := Numeral.exists_of_mem_hex hmem
    exact (hdigit d hd).2 heq.symm

theorem Solid.append {s t : String} (hs : Solid s) (ht : Solid t) : Solid (s ++ t) := by
  unfold Solid
  rw [String.toList_append]
  exact ⟨fun h => (List.mem_append.1 h).elim hs.1 ht.1,
    fun h => (List.mem_append.1 h).elim hs.2 ht.2⟩

theorem solid_registerText (x : Register) : Solid (registerText x) :=
  Solid.append (by decide) (solid_hex 1 _)

theorem solid_byteText (nn : UInt8) : Solid (byteText nn) :=
  Solid.append (by decide) (solid_hex 2 _)

theorem solid_addressText (a : UInt16) : Solid (addressText a) :=
  Solid.append (by decide) (solid_hex 3 _)

theorem solid_decimal : ∀ n : Fin 16, Solid (Numeral.decimal n.val) := by decide +kernel

theorem solid_unknownText (w : UInt16) : Solid (unknownText w) := by
  unfold unknownText
  split
  · exact Solid.append (by decide) (solid_hex 1 _)
  · exact Solid.append (by decide) (solid_hex 2 _)
  · exact Solid.append (by decide) (solid_hex 2 _)
  · exact solid_hex 4 _

theorem Kind.blank_not_mem_mnemonic (k : Kind) : ' ' ∉ k.mnemonic.toList := by
  cases k <;> decide

theorem SkipTest.solid_operands (test : SkipTest) : ∀ text ∈ test.operands, Solid text := by
  cases test <;> simp [SkipTest.operands, solid_registerText, solid_byteText]

theorem ArithmeticOp.solid_operands (op : ArithmeticOp) (x y : Register) :
    ∀ text ∈ op.operands x y, Solid text := by
  cases op <;> simp [ArithmeticOp.operands, solid_registerText]

/-- All operands are of one piece. -/
theorem Instruction.solid_operands (i : Instruction) : ∀ text ∈ i.operands, Solid text := by
  cases i with
  | skip test => exact test.solid_operands
  | arithmetic op x y => exact op.solid_operands x y
  | unknown w => simp [operands, solid_unknownText]
  | draw x y n => simp [operands, solid_registerText, solid_decimal]
  | clear | ret => simp [operands]
  | sys | jump | call => simp [operands, solid_addressText]
  | loadByte | addByte | random => simp [operands, solid_registerText, solid_byteText]
  | loadIndex | jumpOffset =>
    have hname : Solid "I" ∧ Solid "V0" := by decide
    simp [operands, hname, solid_addressText]
  | _ =>
    have hname : Solid "DT" ∧ Solid "K" ∧ Solid "ST" ∧ Solid "I" ∧ Solid "F" ∧ Solid "B" ∧
        Solid "[I]" := by decide
    simp [operands, hname, solid_registerText]

/-! ### Instructions from mnemonics and operands -/

/-- Whether an operation is a shift. -/
def ArithmeticOp.isShift : ArithmeticOp → Bool
  | .shiftRight | .shiftLeft => true
  | _ => false

namespace Instruction

/-- The instructions without operands. -/
def ofMnemonic? : String → Option Instruction
  | "CLS" => some .clear
  | "RET" => some .ret
  | _ => none

/-- The instructions with a number only. -/
def ofNumber? (n : Nat) : String → Option Instruction
  | "SYS" => some (.sys (.ofNat n))
  | "JP" => some (.jump (.ofNat n))
  | "CALL" => some (.call (.ofNat n))
  | _ => none

/-- The instructions with a register only. A shift reads the register that it sets. -/
def ofRegister? (x : Register) : String → Option Instruction
  | "SHR" => some (.arithmetic .shiftRight x x)
  | "SHL" => some (.arithmetic .shiftLeft x x)
  | "SKP" => some (.skip (.held x))
  | "SKNP" => some (.skip (.notHeld x))
  | _ => none

/-- The instructions with a register and a number. -/
def ofRegisterNumber? (x : Register) (n : Nat) : String → Option Instruction
  | "JP" => some (.jumpOffset (.ofNat n))
  | "SE" => some (.skip (.eqByte x (.ofNat n)))
  | "SNE" => some (.skip (.neByte x (.ofNat n)))
  | "LD" => some (.loadByte x (.ofNat n))
  | "ADD" => some (.addByte x (.ofNat n))
  | "RND" => some (.random x (.ofNat n))
  | _ => none

/-- The instructions with two registers. -/
def ofRegisters? (x y : Register) : String → Option Instruction
  | "SE" => some (.skip (.eqRegister x y))
  | "SNE" => some (.skip (.neRegister x y))
  | "LD" => some (.arithmetic .copy x y)
  | "OR" => some (.arithmetic .or x y)
  | "AND" => some (.arithmetic .and x y)
  | "XOR" => some (.arithmetic .xor x y)
  | "ADD" => some (.arithmetic .add x y)
  | "SUB" => some (.arithmetic .sub x y)
  | "SUBN" => some (.arithmetic .subReverse x y)
  | _ => none

/-- The instructions that set a register from something that has a name. -/
def ofRegisterName? (x : Register) : String → String → Option Instruction
  | "LD", "DT" => some (.readDelay x)
  | "LD", "K" => some (.waitKey x)
  | "LD", "[I]" => some (.load x)
  | _, _ => none

/-- The instructions that do something with a register to something that has a name. -/
def ofNameRegister? (x : Register) : String → String → Option Instruction
  | "LD", "DT" => some (.setDelay x)
  | "LD", "ST" => some (.setSound x)
  | "LD", "F" => some (.glyph x)
  | "LD", "B" => some (.decimal x)
  | "LD", "[I]" => some (.store x)
  | "ADD", "I" => some (.addIndex x)
  | _, _ => none

/-- The instruction of a mnemonic with its operands. -/
def assemble (mnemonic : String) : List Operand → Option Instruction
  | [] => ofMnemonic? mnemonic
  | [.number n] => ofNumber? n mnemonic
  | [.register x] => ofRegister? x mnemonic
  | [.register x, .number n] => ofRegisterNumber? x n mnemonic
  | [.register x, .register y] => ofRegisters? x y mnemonic
  | [.register x, .name text] => ofRegisterName? x mnemonic text
  | [.name text, .register x] => ofNameRegister? x mnemonic text
  | [.name text, .number n] =>
    if mnemonic = "LD" ∧ text = "I" then some (.loadIndex (.ofNat n)) else none
  | [.register x, .register y, .number n] =>
    if hn : mnemonic = "DRW" ∧ n < 16 then some (.draw x y ⟨n, hn.2⟩) else none
  | _ => none

/-- The instruction of a text. -/
def ofText? (text : String) : Option Instruction :=
  assemble (.ofList (mnemonicOf text.toList)) ((operandsOf text.toList).map Operand.read)

/-- What the text of an instruction shows: not the second register of a shift, and nothing of a word
that is no instruction. -/
def shown : Instruction → Option Instruction
  | .arithmetic op x y => some (.arithmetic op x (if op.isShift then x else y))
  | .unknown _ => none
  | i => some i

/-- No operands make the mnemonic of words that are no instruction one. -/
theorem assemble_unknown (operands : List Operand) :
    assemble Kind.unknown.mnemonic operands = none := by
  unfold assemble
  split <;> rfl

/-- **The operands tell the instruction**, up to what is not shown. -/
theorem assemble_operands (i : Instruction) :
    assemble i.kind.mnemonic ((i.operands.map String.toList).map Operand.read) = i.shown := by
  cases i with
  | unknown w => exact assemble_unknown _
  | clear | ret => rfl
  | sys | jump | call => simp [operands, kind, Kind.mnemonic, assemble, ofNumber?, shown]
  | skip test =>
    cases test <;> simp [operands, SkipTest.operands, kind, SkipTest.kind, Kind.mnemonic, assemble,
      ofRegister?, ofRegisterNumber?, ofRegisters?, shown]
  | arithmetic op x y =>
    cases op <;> simp [operands, ArithmeticOp.operands, kind, ArithmeticOp.kind, Kind.mnemonic,
      assemble, ofRegister?, ofRegisters?, shown, ArithmeticOp.isShift]
  | loadByte | addByte | random =>
    simp [operands, kind, Kind.mnemonic, assemble, ofRegisterNumber?, shown]
  | jumpOffset a =>
    have hfirst : Operand.read ['V', '0'] = .register .zero := by decide
    simp [operands, hfirst, kind, Kind.mnemonic, assemble, ofRegisterNumber?, shown]
  | draw x y n => simp [operands, kind, Kind.mnemonic, assemble, shown]
  | loadIndex a => simp [operands, Operand.read_names, kind, Kind.mnemonic, assemble, shown]
  | readDelay | waitKey | load =>
    simp [operands, Operand.read_names, kind, Kind.mnemonic, assemble, ofRegisterName?, shown]
  | setDelay | setSound | glyph | decimal | store | addIndex =>
    simp [operands, Operand.read_names, kind, Kind.mnemonic, assemble, ofNameRegister?, shown]

/-! ### Texts of words -/

theorem ofText?_render (w : UInt16) : ofText? (Operation.ofWord w).render = (ofWord w).shown := by
  have hblank : ' ' ∉ (Operation.ofWord w).mnemonic.toList := Kind.blank_not_mem_mnemonic _
  rw [ofText?, Operation.mnemonicOf_render hblank,
    Operation.operandsOf_render hblank (solid_operands _), String.ofList_toList]
  exact assemble_operands _

/-- **The text of a word shows its instruction**, and so it does of an integer beyond the words. -/
theorem ofText?_disassemble (n : Int) :
    ofText? (disassemble n) = (ofWord (UInt16.ofInt n)).shown := ofText?_render _

end Instruction

/-- A word is the one of its number. -/
theorem Word.ofInt_toNat (w : UInt16) : UInt16.ofInt w.toNat = w := by
  have hlt := w.toNat_lt
  have hlow : ((w.toNat : Int) % 2 ^ 16).toNat = w.toNat := by omega
  rw [UInt16.ofInt, hlow, UInt16.ofNat_toNat]

/-- The text of a word is that of its number. -/
theorem disassemble_toNat (w : UInt16) : disassemble w.toNat = (Operation.ofWord w).render := by
  rw [disassemble, Operation.ofInt, Word.ofInt_toNat]

/-- Words of one instruction have one text. -/
theorem Operation.render_congr {v w : UInt16} (h : Instruction.ofWord v = Instruction.ofWord w) :
    (Operation.ofWord v).render = (Operation.ofWord w).render := by
  unfold render ofWord
  rw [h]

end Chip8
