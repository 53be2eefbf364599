import VVBright.Foundation.Traced

/-!
# The framebuffer

`put_pixel` of `framebuffer.c` and `draw_rect` of `draw.c`.  The framebuffer is an array of colours
indexed by 32-bit unsigned numbers; every store is recorded with its index.  The coordinates of
`draw_rect` are signed, those of `put_pixel` unsigned, and the conversion keeps the bits.

`exec_drawRect` says which indices a rectangle sets, with all arithmetic modulo `2 ^ 32`.
-/

namespace VVBright

open Traced

/-- The variables of `framebuffer.c`, and the memory `fb` points to. -/
structure FbState where
  /-- `fb`, by index. -/
  fb : BitVec 32 → BitVec 32
  /-- `fb_width`. -/
  fbWidth : BitVec 32
  /-- `fb_height`. -/
  fbHeight : BitVec 32

/-- Computations on the framebuffer. -/
abbrev FbM (α : Type) := Traced FbState (BitVec 32) α

/-- `put_pixel`. -/
def putPixel (x y color : BitVec 32) : FbM Unit := do
  let fbWidth ← gets FbState.fbWidth
  let index := y * fbWidth + x
  touch index
  modify fun s => { s with fb := Function.update s.fb index color }

/-- The number of rounds of `for (int i = lo; i < lo + n; i++)`. -/
def intRounds (lo n : BitVec 32) : ℕ := ((lo + n).toInt - lo.toInt).toNat

/-- `draw_rect`. -/
def drawRect (x y w h color : BitVec 32) : FbM Unit :=
  forLoop (intRounds y h) fun i =>
    forLoop (intRounds x w) fun j =>
      putPixel (x + BitVec.ofNat 32 j) (y + BitVec.ofNat 32 i) color

/-- The access is inside a framebuffer of `fb_width * fb_height` pixels. -/
def InFramebuffer (s : FbState) (index : BitVec 32) : Prop :=
  index.toNat < s.fbWidth.toNat * s.fbHeight.toNat

/-- The colour of the pixel `(px, py)`, read at the index `py * fb_width + px`. -/
def pixelAt (s : FbState) (px py : ℕ) : BitVec 32 :=
  s.fb (BitVec.ofNat 32 (py * s.fbWidth.toNat + px))

/-! ## The stores of `draw_rect` -/

lemma exec_putPixel (x y color : BitVec 32) (s : FbState) :
    (putPixel x y color).exec s =
      { s with fb := Function.update s.fb (y * s.fbWidth + x) color } := rfl

/-- A row of pixels. -/
lemma exec_row (x y color : BitVec 32) (n : ℕ) (s : FbState) :
    (forLoop n fun j => putPixel (x + BitVec.ofNat 32 j) y color).exec s =
      { s with
        fb := fun k =>
          if ∃ j < n, k = y * s.fbWidth + (x + BitVec.ofNat 32 j) then color else s.fb k } := by
  induction n with
  | zero => simp
  | succ n ih =>
    rw [exec_forLoop_succ, ih, exec_putPixel]
    congr 1
    funext k
    by_cases hk : k = y * s.fbWidth + (x + BitVec.ofNat 32 n)
    · rw [hk, Function.update_self, if_pos ⟨n, Nat.lt_succ_self n, rfl⟩]
    · have hlast : (∃ j < n + 1, k = y * s.fbWidth + (x + BitVec.ofNat 32 j)) ↔
          ∃ j < n, k = y * s.fbWidth + (x + BitVec.ofNat 32 j) := by
        simp only [Nat.exists_lt_succ_right, hk, or_false]
      rw [Function.update_of_ne hk]
      simp only [hlast]

/-- The indices `draw_rect` sets. -/
theorem exec_drawRect (x y w h color : BitVec 32) (s : FbState) :
    (drawRect x y w h color).exec s =
      { s with
        fb := fun k =>
          if ∃ i < intRounds y h, ∃ j < intRounds x w,
              k = (y + BitVec.ofNat 32 i) * s.fbWidth + (x + BitVec.ofNat 32 j) then color
          else s.fb k } := by
  rw [drawRect]
  induction intRounds y h with
  | zero => simp
  | succ m ih =>
    rw [exec_forLoop_succ, ih, exec_row]
    congr 1
    funext k
    simp only [Nat.exists_lt_succ_right]
    by_cases hrow : ∃ j < intRounds x w,
        k = (y + BitVec.ofNat 32 m) * s.fbWidth + (x + BitVec.ofNat 32 j)
    · rw [if_pos hrow, if_pos (Or.inr hrow)]
    · rw [if_neg hrow]
      simp only [hrow, or_false]

/-! ## Coordinates and indices -/

lemma toNat_of_toInt_nonneg {x : BitVec 32} (h : 0 ≤ x.toInt) : x.toInt = x.toNat := by
  have hlt := x.isLt
  rw [BitVec.toInt_eq_toNat_cond] at h ⊢
  split at h
  · rw [if_pos ‹_›]
  · omega

/-- The index of a pixel of the screen does not wrap around. -/
lemma toNat_index {x y width : BitVec 32} (h : y.toNat * width.toNat + x.toNat < 2 ^ 32) :
    (y * width + x).toNat = y.toNat * width.toNat + x.toNat := by
  rw [BitVec.toNat_add, BitVec.toNat_mul, Nat.mod_eq_of_lt (a := y.toNat * width.toNat) (by omega),
    Nat.mod_eq_of_lt h]

lemma index_lt {px py width height : ℕ} (hx : px < width) (hy : py < height) :
    py * width + px < width * height := by
  calc py * width + px < py * width + width := by omega
    _ = width * (py + 1) := by ring
    _ ≤ width * height := Nat.mul_le_mul_left width hy

/-- Different pixels have different indices. -/
lemma index_injective {px py px' py' width : ℕ} (hx : px < width) (hx' : px' < width)
    (h : py * width + px = py' * width + px') : px = px' ∧ py = py' := by
  have hpos : 0 < width := by omega
  have hmod := congrArg (· % width) h
  simp only [Nat.mul_add_mod_self_right, Nat.mod_eq_of_lt hx, Nat.mod_eq_of_lt hx'] at hmod
  refine ⟨hmod, Nat.eq_of_mul_eq_mul_right hpos ?_⟩
  omega

end VVBright
