import Chip8.Proofs.Core.WellFormed
import Mathlib.Algebra.Group.Nat.Even
import Mathlib.Data.List.Nodup
import Mathlib.Data.List.Range
import Mathlib.Logic.Function.Iterate

/-!
# Drawing sprites

A sprite flips the pixels that its set bits fall on, one after the other, and tells whether one of
them was on when its turn came. In the end only the number of times counts that a pixel was flipped,
and of this only the parity; so the order of sprites does not matter, and the same sprite drawn
again undoes itself. This holds of sprites of any height, although one of more than 32 rows comes
round the screen and meets its own pixels.

The collision is another matter, since it looks at the pixels in between. A sprite of at most 32
rows meets no pixel twice: the pixels of a row have different columns, and the rows different lines.
Then every pixel is still as it was before the sprite when its turn comes.

## Main definitions

* `Framebuffer.Covers` — a set bit of a sprite falls on a pixel
* `Framebuffer.DrawsSprite` — every covered pixel is flipped once, and no other
* `Framebuffer.Sprite`, `Framebuffer.drawAll` — sprites with their places, drawn one after the other

## Main results

* `Framebuffer.get_flipAll` — a pixel is flipped as often as it is met
* `Framebuffer.snd_flipAll_iff` — the collision of pixels that are met once
* `Framebuffer.nodup_litCells` — sprites of at most 32 rows meet no pixel twice
* `Framebuffer.Binary.drawsSprite` — drawing such a sprite
* `Framebuffer.Binary.draws_commute_and_cancel` — sprites of any height in any order, and twice
-/

namespace Chip8

namespace Framebuffer

variable {f : Framebuffer} {p : Pixels} {cells others : List (Fin pixelCount)} {c : Fin pixelCount}
  {x y px py row : Int} {rows : List Int}

/-! ### Flipping pixels -/

/-- A pixel that is switched. -/
def flip (b : UInt8) : UInt8 := b ^^^ 1

theorem involutive_flip : Function.Involutive flip := by
  intro b
  rw [flip, flip, UInt8.xor_assoc, UInt8.xor_self, UInt8.xor_zero]

theorem get_set (p : Pixels) (a c : Fin pixelCount) (b : UInt8) :
    (p.set a.val b a.isLt).get c = if a = c then b else p.get c := by
  by_cases hac : a = c
  · subst hac
    rw [if_pos rfl]
    exact Vector.getElem_set_self a.isLt
  · have hval : a.val ≠ c.val := fun h => hac (Fin.ext h)
    rw [if_neg hac]
    exact Vector.getElem_set_ne a.isLt c.isLt hval

/-- **A pixel is flipped as often as it is met.** -/
theorem get_flipAll (p : Pixels) (cells : List (Fin pixelCount)) (c : Fin pixelCount) :
    (flipAll p cells).1.get c = flip^[cells.count c] (p.get c) := by
  induction cells generalizing p with
  | nil => rfl
  | cons a rest ih =>
    show (flipAll (p.set a.val (flip (p.get a)) a.isLt) rest).1.get c = _
    rw [ih, get_set, List.count_cons]
    by_cases hac : a = c
    · subst hac
      rw [if_pos rfl, if_pos (beq_self_eq_true a)]
      rfl
    · rw [if_neg hac, if_neg (by simpa using hac)]
      rfl

/-- The pixels do not depend on the order in which they are flipped. -/
theorem flipAll_perm (h : cells.Perm others) : (flipAll p cells).1 = (flipAll p others).1 := by
  refine Vector.ext fun i hi => ?_
  have hcount := h.count_eq ⟨i, hi⟩
  have hfirst := get_flipAll p cells ⟨i, hi⟩
  rw [hcount, ← get_flipAll p others] at hfirst
  exact hfirst

theorem flipAll_append (p : Pixels) (cells others : List (Fin pixelCount)) :
    (flipAll p (cells ++ others)).1 = (flipAll (flipAll p cells).1 others).1 := by
  induction cells generalizing p with
  | nil => rfl
  | cons a rest ih => exact ih _

/-- Pixels that are flipped again are as before. -/
theorem flipAll_flipAll (p : Pixels) (cells : List (Fin pixelCount)) :
    (flipAll (flipAll p cells).1 cells).1 = p := by
  refine Vector.ext fun i hi => ?_
  have htwice := get_flipAll p (cells ++ cells) ⟨i, hi⟩
  rw [List.count_append, involutive_flip.iterate_even ⟨_, rfl⟩] at htwice
  rw [flipAll_append] at htwice
  exact htwice

/-- **The collision of pixels that are met once**: one of them was on. -/
theorem snd_flipAll_iff (h : cells.Nodup) :
    (flipAll p cells).2 = true ↔ ∃ c ∈ cells, p.get c ≠ 0 := by
  induction cells generalizing p with
  | nil => simp [flipAll]
  | cons a rest ih =>
    obtain ⟨hnot, hrest⟩ := List.nodup_cons.1 h
    have hlater : (flipAll (p.set a.val (flip (p.get a)) a.isLt) rest).2 = true ↔
        ∃ c ∈ rest, p.get c ≠ 0 := by
      rw [ih hrest]
      refine exists_congr fun c => and_congr_right fun hc => ?_
      have hac : a ≠ c := fun heq => hnot (heq ▸ hc)
      rw [get_set, if_neg hac]
    show (p.get a != 0 || (flipAll (p.set a.val (flip (p.get a)) a.isLt) rest).2) = true ↔ _
    rw [Bool.or_eq_true, hlater, List.exists_mem_cons_iff, bne_iff_ne]

/-! ### The pixels of a sprite -/

/-- A set bit of the sprite at the given place falls on the pixel at `px` and `py`. -/
def Covers (x y : Int) (rows : List Int) (px py : Int) : Prop :=
  ∃ r b : Nat, ∃ row, rows[r]? = some row ∧ b < 8 ∧ rowBit row b = true ∧
    px % 64 = (x + b) % 64 ∧ py % 32 = (y + r) % 32

theorem cell_eq_iff : cell x y = cell px py ↔ x % 64 = px % 64 ∧ y % 32 = py % 32 := by
  rw [Fin.ext_iff]
  simp only [cell]
  omega

/-- Every pixel has coordinates. -/
theorem exists_cell (c : Fin pixelCount) : ∃ px py, cell px py = c := by
  refine ⟨(c.val % 64 : Nat), (c.val / 64 : Nat), Fin.ext ?_⟩
  have hlt : c.val < 2048 := c.isLt
  simp only [cell]
  omega

theorem mem_litRow : c ∈ litRow x y row ↔ ∃ b : Nat, b < 8 ∧ rowBit row b = true ∧
    cell (x + b) y = c := by
  simp only [litRow, List.mem_map, List.mem_filter, List.mem_range, and_assoc]

theorem mem_litCells : c ∈ litCells x y rows ↔ ∃ r b : Nat, ∃ row, rows[r]? = some row ∧ b < 8 ∧
    rowBit row b = true ∧ cell (x + b) (y + r) = c := by
  induction rows generalizing y with
  | nil => simp [litCells]
  | cons first rest ih =>
    have hnext (r : Nat) : y + 1 + (r : Int) = y + (r + 1 : Nat) := by omega
    rw [litCells, List.mem_append, mem_litRow, ih]
    constructor
    · rintro (⟨b, hb, hbit, rfl⟩ | ⟨r, b, row, hrow, hb, hbit, rfl⟩)
      · exact ⟨0, b, first, rfl, hb, hbit, by simp⟩
      · exact ⟨r + 1, b, row, hrow, hb, hbit, by rw [hnext]⟩
    · rintro ⟨r, b, row, hrow, hb, hbit, rfl⟩
      cases r with
      | zero =>
        obtain rfl : first = row := Option.some.inj hrow
        exact .inl ⟨b, hb, hbit, by simp⟩
      | succ r =>
        exact .inr ⟨r, b, row, hrow, hb, hbit, by rw [hnext]⟩

/-- A sprite covers the pixels that it flips. -/
theorem covers_iff : Covers x y rows px py ↔ cell px py ∈ litCells x y rows := by
  simp only [Covers, mem_litCells, cell_eq_iff, eq_comm (a := px % 64), eq_comm (a := py % 32)]

theorem nodup_litRow (x y row : Int) : (litRow x y row).Nodup := by
  refine List.Nodup.map_on ?_ (List.nodup_range.filter _)
  intro b hb b' hb' heq
  have hlt : b < 8 := List.mem_range.1 (List.mem_filter.1 hb).1
  have hlt' : b' < 8 := List.mem_range.1 (List.mem_filter.1 hb').1
  have hcolumn := (cell_eq_iff.1 heq).1
  omega

/-- **A sprite of at most 32 rows meets no pixel twice.** -/
theorem nodup_litCells (h : rows.length ≤ 32) : (litCells x y rows).Nodup := by
  induction rows generalizing y with
  | nil => exact List.nodup_nil
  | cons first rest ih =>
    have hlength : rest.length < 32 := h
    refine List.Nodup.append (nodup_litRow x y first) (ih hlength.le) ?_
    intro c hfirst hrest
    obtain ⟨b, -, -, rfl⟩ := mem_litRow.1 hfirst
    obtain ⟨r, b', row, hrow, -, -, heq⟩ := mem_litCells.1 hrest
    obtain ⟨hr, -⟩ := List.getElem?_eq_some_iff.1 hrow
    -- the line of the first row comes again after 32 rows
    have hline := (cell_eq_iff.1 heq).2
    omega

/-! ### Drawing one sprite -/

theorem pixel_draw (f : Framebuffer) (x y : Int) (rows : List Int) (px py : Int) :
    (f.draw x y rows).1.pixel px py =
      flip^[(litCells x y rows).count (cell px py)] (f.pixel px py) :=
  get_flipAll f.pixels (litCells x y rows) (cell px py)

theorem pixel_draw_of_not_covers (h : ¬ Covers x y rows px py) :
    (f.draw x y rows).1.pixel px py = f.pixel px py := by
  rw [covers_iff] at h
  rw [pixel_draw, List.count_eq_zero_of_not_mem h]
  rfl

theorem pixel_draw_of_covers (hrows : rows.length ≤ 32) (h : Covers x y rows px py) :
    (f.draw x y rows).1.pixel px py = f.pixel px py ^^^ 1 := by
  rw [covers_iff] at h
  rw [pixel_draw, List.count_eq_one_of_mem (nodup_litCells hrows) h]
  rfl

theorem Binary.pixel (h : f.Binary) (px py : Int) : f.pixel px py = 0 ∨ f.pixel px py = 1 :=
  h _ (Vector.getElem_mem (cell px py).isLt)

/-- A sprite of at most 32 rows collides when it covers a pixel that is on. -/
theorem Binary.snd_draw_iff (h : f.Binary) (hrows : rows.length ≤ 32) :
    (f.draw x y rows).2 = true ↔ ∃ px py, Covers x y rows px py ∧ f.pixel px py = 1 := by
  have hcollision : (f.draw x y rows).2 = true ↔ ∃ c ∈ litCells x y rows, f.pixels.get c ≠ 0 :=
    snd_flipAll_iff (nodup_litCells hrows)
  rw [hcollision]
  constructor
  · rintro ⟨c, hc, hon⟩
    obtain ⟨px, py, rfl⟩ := exists_cell c
    exact ⟨px, py, covers_iff.2 hc, (h.pixel px py).resolve_left hon⟩
  · rintro ⟨px, py, hcovers, hon⟩
    refine ⟨cell px py, covers_iff.1 hcovers, ?_⟩
    show f.pixel px py ≠ 0
    rw [hon]
    decide

/-- One screen becomes another by drawing a sprite: the pixels that it covers are switched, the
others are as before, all of them are 0 or 1, and the collision tells whether one was switched
off. -/
structure DrawsSprite (f : Framebuffer) (x y : Int) (rows : List Int) (next : Framebuffer)
    (collision : Bool) : Prop where
  covered : ∀ px py, Covers x y rows px py → next.pixel px py = f.pixel px py ^^^ 1
  uncovered : ∀ px py, ¬ Covers x y rows px py → next.pixel px py = f.pixel px py
  binary : next.Binary
  collision_iff : collision = true ↔ ∃ px py, f.pixel px py = 1 ∧ next.pixel px py = 0

/-- **Drawing a sprite of at most 32 rows** flips every pixel that it covers once. -/
theorem Binary.drawsSprite (h : f.Binary) (x y : Int) (hrows : rows.length ≤ 32) :
    DrawsSprite f x y rows (f.draw x y rows).1 (f.draw x y rows).2 where
  covered px py hcovers := pixel_draw_of_covers hrows hcovers
  uncovered px py hcovers := pixel_draw_of_not_covers hcovers
  binary := h.draw x y rows
  collision_iff := by
    rw [h.snd_draw_iff hrows]
    refine exists_congr fun px => exists_congr fun py => ?_
    constructor
    · rintro ⟨hcovers, hon⟩
      refine ⟨hon, ?_⟩
      rw [pixel_draw_of_covers hrows hcovers, hon]
      rfl
    · rintro ⟨hon, hoff⟩
      refine ⟨?_, hon⟩
      by_contra hcovers
      rw [pixel_draw_of_not_covers hcovers, hon] at hoff
      exact absurd hoff (by decide)

/-! ### Drawing many sprites -/

/-- A sprite and the place of its left upper corner. -/
structure Sprite where
  x : Int
  y : Int
  rows : List Int
  deriving DecidableEq, Repr

/-- The pixels that a sprite flips. -/
def Sprite.footprint (s : Sprite) : List (Fin pixelCount) := litCells s.x s.y s.rows

/-- The screen after sprites were drawn one after the other. -/
def drawAll (f : Framebuffer) (sprites : List Sprite) : Framebuffer :=
  sprites.foldl (fun f s => (f.draw s.x s.y s.rows).1) f

theorem pixels_drawAll (f : Framebuffer) (sprites : List Sprite) :
    (f.drawAll sprites).pixels = (flipAll f.pixels (sprites.flatMap Sprite.footprint)).1 := by
  induction sprites generalizing f with
  | nil => rfl
  | cons s rest ih =>
    rw [List.flatMap_cons, flipAll_append]
    exact ih (f.draw s.x s.y s.rows).1

/-- **Draws commute and cancel.** On a screen of zeros and ones sprites of any height may be drawn
in any order, and the pixels are the same in the end; and a sprite that is drawn twice leaves them
as they were. If it has at most 32 rows, the first time tells whether one of its pixels was on
before, and the second time whether one of them was off. -/
theorem Binary.draws_commute_and_cancel (h : f.Binary) :
    (∀ sprites reordered : List Sprite, sprites.Perm reordered →
      (f.drawAll sprites).pixels = (f.drawAll reordered).pixels) ∧
      (∀ s : Sprite, (f.drawAll [s, s]).pixels = f.pixels) ∧
      ∀ (x y : Int) (rows : List Int), rows.length ≤ 32 →
        ((f.draw x y rows).2 = true ↔ ∃ px py, Covers x y rows px py ∧ f.pixel px py = 1) ∧
        (((f.draw x y rows).1.draw x y rows).2 = true ↔
          ∃ px py, Covers x y rows px py ∧ f.pixel px py = 0) := by
  refine ⟨fun sprites reordered hperm => ?_, fun s => ?_, fun x y rows hrows => ?_⟩
  · rw [pixels_drawAll, pixels_drawAll]
    exact flipAll_perm (hperm.flatMap_right Sprite.footprint)
  · exact flipAll_flipAll f.pixels s.footprint
  · refine ⟨h.snd_draw_iff hrows, ?_⟩
    rw [(h.draw x y rows).snd_draw_iff hrows]
    refine exists_congr fun px => exists_congr fun py => and_congr_right fun hcovers => ?_
    rw [pixel_draw_of_covers hrows hcovers]
    -- a covered pixel was switched by the first sprite, so it is on now if it was off
    rcases h.pixel px py with hoff | hon
    · rw [hoff]
      decide
    · rw [hon]
      decide

/-- A dark screen but for one pixel. -/
def dotted : Framebuffer := blank.setPixel 62 1 true

theorem binary_dotted : dotted.Binary := isBinary_set binary_blank (cell 62 1).isLt (.inr rfl)

/-- A sprite that comes round the screen to its own first row. -/
def tallSprite : Sprite := ⟨60, 1, List.replicate 33 0xFF⟩

/-- A sprite across it, which meets the pixel that is on and others that are off. -/
def lowSprite : Sprite := ⟨-2, 33, [0xC0, 0x03]⟩

theorem draws_commute_and_cancel_dotted :
    dotted.Binary ∧ tallSprite.footprint.count (cell 60 1) = 2 ∧
      (dotted.drawAll [tallSprite, lowSprite]).pixels =
        (dotted.drawAll [lowSprite, tallSprite]).pixels ∧
      (dotted.drawAll [tallSprite, tallSprite]).pixels = dotted.pixels ∧
      (dotted.draw (-2) 33 [0xC0, 0x03]).2 = true ∧
      ((dotted.draw (-2) 33 [0xC0, 0x03]).1.draw (-2) 33 [0xC0, 0x03]).2 = true := by
  obtain ⟨hcommute, hcancel, hcollide⟩ := binary_dotted.draws_commute_and_cancel
  obtain ⟨hfirst, hsecond⟩ := hcollide (-2) 33 [0xC0, 0x03] (by decide)
  have hleft : Covers (-2) 33 [0xC0, 0x03] 62 1 :=
    ⟨0, 0, 0xC0, rfl, by decide, by decide, by decide, by decide⟩
  have hright : Covers (-2) 33 [0xC0, 0x03] 63 1 :=
    ⟨0, 1, 0xC0, rfl, by decide, by decide, by decide, by decide⟩
  exact ⟨binary_dotted, by decide +kernel, hcommute _ _ (.swap _ _ _), hcancel tallSprite,
    hfirst.2 ⟨62, 1, hleft, by decide +kernel⟩, hsecond.2 ⟨63, 1, hright, by decide +kernel⟩⟩

end Framebuffer

end Chip8
