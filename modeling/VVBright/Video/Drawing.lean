import VVBright.Foundation.Painter
import VVBright.Video.Framebuffer

/-!
# Drawing on the screen

A list of `draw_rect` calls with rectangles on the screen is the painter's algorithm: the
framebuffer, seen as a canvas of pixels, changes as the canvas does when the rectangle is painted on
it (`view_drawRects`), so every pixel ends with the colour of the last rectangle that contains it
(`drawRects_painter`).  `kernel_main` draws its desktop in this way (`kernelMain_desktop`).
-/

namespace VVBright

open Traced

/-- The arguments of a call of `draw_rect`. -/
structure Rect where
  x : BitVec 32
  y : BitVec 32
  w : BitVec 32
  h : BitVec 32
  color : BitVec 32
  deriving DecidableEq

/-- The call of `draw_rect`. -/
def Rect.draw (r : Rect) : FbM Unit := drawRect r.x r.y r.w r.h r.color

/-- Calls of `draw_rect`, one after the other. -/
def drawRects : List Rect → FbM Unit
  | [] => pure ()
  | r :: rs => do
    r.draw
    drawRects rs

/-- The rectangle lies on the screen; the coordinates are signed. -/
structure Rect.OnScreen (r : Rect) (s : FbState) : Prop where
  x_nonneg : 0 ≤ r.x.toInt
  y_nonneg : 0 ≤ r.y.toInt
  w_nonneg : 0 ≤ r.w.toInt
  h_nonneg : 0 ≤ r.h.toInt
  right_le : r.x.toInt + r.w.toInt ≤ s.fbWidth.toNat
  bottom_le : r.y.toInt + r.h.toInt ≤ s.fbHeight.toNat

/-- The pixel lies in the rectangle. -/
def Rect.Contains (r : Rect) (px py : ℕ) : Prop :=
  r.x.toInt ≤ px ∧ px < r.x.toInt + r.w.toInt ∧ r.y.toInt ≤ py ∧ py < r.y.toInt + r.h.toInt

instance (r : Rect) (px py : ℕ) : Decidable (r.Contains px py) :=
  inferInstanceAs (Decidable (_ ∧ _ ∧ _ ∧ _))

/-- The screens for which coordinates are `int`s and indices are 32-bit numbers. -/
structure Addressable (s : FbState) : Prop where
  width_lt : s.fbWidth.toNat < 2 ^ 31
  height_lt : s.fbHeight.toNat < 2 ^ 31
  area_le : s.fbWidth.toNat * s.fbHeight.toNat ≤ 2 ^ 32

/-! ## One rectangle -/

/-- A loop over coordinates that do not overflow makes as many rounds as it should. -/
lemma intRounds_eq {lo n : BitVec 32} (hlo : 0 ≤ lo.toInt) (hn : 0 ≤ n.toInt)
    (h : lo.toInt + n.toInt < 2 ^ 31) : intRounds lo n = n.toNat := by
  have hlo' := toNat_of_toInt_nonneg hlo
  have hn' := toNat_of_toInt_nonneg hn
  have hsum : (lo + n).toInt = lo.toNat + n.toNat := by
    rw [BitVec.toInt_eq_toNat_cond, BitVec.toNat_add, Nat.mod_eq_of_lt (by omega),
      if_pos (by omega), Nat.cast_add]
  rw [intRounds, hsum, hlo']
  omega

section

variable {r : Rect} {s : FbState} (hs : Addressable s) (hr : r.OnScreen s)

include hr

lemma Rect.OnScreen.contains_iff (px py : ℕ) : r.Contains px py ↔
    (r.x.toNat ≤ px ∧ px < r.x.toNat + r.w.toNat) ∧
      r.y.toNat ≤ py ∧ py < r.y.toNat + r.h.toNat := by
  rw [Rect.Contains, toNat_of_toInt_nonneg hr.x_nonneg, toNat_of_toInt_nonneg hr.y_nonneg,
    toNat_of_toInt_nonneg hr.w_nonneg, toNat_of_toInt_nonneg hr.h_nonneg]
  omega

include hs

lemma Rect.OnScreen.rounds : intRounds r.x r.w = r.w.toNat ∧ intRounds r.y r.h = r.h.toNat ∧
    r.x.toNat + r.w.toNat ≤ s.fbWidth.toNat ∧ r.y.toNat + r.h.toNat ≤ s.fbHeight.toNat := by
  have hright := hr.right_le
  have hbottom := hr.bottom_le
  have hwidth := hs.width_lt
  have hheight := hs.height_lt
  refine ⟨intRounds_eq hr.x_nonneg hr.w_nonneg (by omega),
    intRounds_eq hr.y_nonneg hr.h_nonneg (by omega), ?_, ?_⟩
  · rw [toNat_of_toInt_nonneg hr.x_nonneg, toNat_of_toInt_nonneg hr.w_nonneg] at hright
    omega
  · rw [toNat_of_toInt_nonneg hr.y_nonneg, toNat_of_toInt_nonneg hr.h_nonneg] at hbottom
    omega

/-- The index computed in a round of the loops. -/
lemma Rect.OnScreen.toNat_round {i j : ℕ} (hi : i < r.h.toNat) (hj : j < r.w.toNat) :
    ((r.y + BitVec.ofNat 32 i) * s.fbWidth + (r.x + BitVec.ofNat 32 j)).toNat =
        (r.y.toNat + i) * s.fbWidth.toNat + (r.x.toNat + j) ∧
      (r.y.toNat + i) * s.fbWidth.toNat + (r.x.toNat + j) <
        s.fbWidth.toNat * s.fbHeight.toNat := by
  obtain ⟨-, -, hright, hbottom⟩ := hr.rounds hs
  have hwidth := hs.width_lt
  have hheight := hs.height_lt
  have hx : (r.x + BitVec.ofNat 32 j).toNat = r.x.toNat + j := by bv_omega
  have hy : (r.y + BitVec.ofNat 32 i).toNat = r.y.toNat + i := by bv_omega
  have hlt : (r.y.toNat + i) * s.fbWidth.toNat + (r.x.toNat + j) <
      s.fbWidth.toNat * s.fbHeight.toNat := index_lt (by omega) (by omega)
  refine ⟨?_, hlt⟩
  rw [toNat_index, hx, hy]
  rw [hx, hy]
  exact hlt.trans_le hs.area_le

/-- The loops pass the index of a pixel exactly when the rectangle contains the pixel. -/
lemma Rect.OnScreen.round_iff {px py : ℕ} (hx : px < s.fbWidth.toNat) (hy : py < s.fbHeight.toNat) :
    (∃ i < intRounds r.y r.h, ∃ j < intRounds r.x r.w,
      BitVec.ofNat 32 (py * s.fbWidth.toNat + px) =
        (r.y + BitVec.ofNat 32 i) * s.fbWidth + (r.x + BitVec.ofNat 32 j)) ↔
      r.Contains px py := by
  obtain ⟨hw, hh, hright, hbottom⟩ := hr.rounds hs
  have hindex : (BitVec.ofNat 32 (py * s.fbWidth.toNat + px)).toNat =
      py * s.fbWidth.toNat + px := by
    rw [BitVec.toNat_ofNat]
    exact Nat.mod_eq_of_lt ((index_lt hx hy).trans_le hs.area_le)
  rw [hw, hh, hr.contains_iff]
  constructor
  · rintro ⟨i, hi, j, hj, heq⟩
    have heq' := congrArg BitVec.toNat heq
    rw [hindex, (hr.toNat_round hs hi hj).1] at heq'
    obtain ⟨hpx, hpy⟩ := index_injective hx (by omega) heq'
    omega
  · rintro ⟨hcol, hrow⟩
    refine ⟨py - r.y.toNat, by omega, px - r.x.toNat, by omega, ?_⟩
    apply BitVec.eq_of_toNat_eq
    rw [hindex, (hr.toNat_round hs (by omega) (by omega)).1, Nat.add_sub_cancel' hrow.1,
      Nat.add_sub_cancel' hcol.1]

/-- A call of `draw_rect` sets the pixels of the rectangle and no others. -/
theorem Rect.OnScreen.pixelAt_draw {px py : ℕ} (hx : px < s.fbWidth.toNat)
    (hy : py < s.fbHeight.toNat) :
    pixelAt (r.draw.exec s) px py = if r.Contains px py then r.color else pixelAt s px py := by
  have hround := hr.round_iff hs hx hy
  rw [Rect.draw, exec_drawRect, pixelAt]
  simp only [hround]
  rfl

end

/-- The framebuffers have the same size. -/
def SameSize (s t : FbState) : Prop := t.fbWidth = s.fbWidth ∧ t.fbHeight = s.fbHeight

lemma sameSize_draw (r : Rect) (s : FbState) : SameSize s (r.draw.exec s) := by
  rw [Rect.draw, exec_drawRect]
  exact ⟨rfl, rfl⟩

lemma SameSize.trans {s t u : FbState} (h : SameSize s t) (h' : SameSize t u) : SameSize s u :=
  ⟨h'.1.trans h.1, h'.2.trans h.2⟩

lemma SameSize.addressable {s t : FbState} (h : SameSize s t) (hs : Addressable s) :
    Addressable t := by
  obtain ⟨hwidth, hheight⟩ := h
  exact ⟨by rw [hwidth]; exact hs.width_lt, by rw [hheight]; exact hs.height_lt,
    by rw [hwidth, hheight]; exact hs.area_le⟩

lemma SameSize.onScreen {s t : FbState} (h : SameSize s t) {r : Rect} (hr : r.OnScreen s) :
    r.OnScreen t := by
  obtain ⟨hwidth, hheight⟩ := h
  exact ⟨hr.x_nonneg, hr.y_nonneg, hr.w_nonneg, hr.h_nonneg, by rw [hwidth]; exact hr.right_le,
    by rw [hheight]; exact hr.bottom_le⟩

/-- A call of `draw_rect` stores inside the framebuffer only. -/
theorem Rect.OnScreen.draw_accessesIn {r : Rect} {s : FbState} (hs : Addressable s)
    (hr : r.OnScreen s) : AccessesIn InFramebuffer r.draw s := by
  obtain ⟨hw, hh, -, -⟩ := hr.rounds hs
  have hkeep : ∀ (x y : BitVec 32) (t : FbState), SameSize s t →
      SameSize s ((putPixel x y r.color).exec t) := fun x y t ht => ht
  rw [Rect.draw, drawRect, hw, hh]
  refine forLoop_accessesIn (fun _ t => SameSize s t) ⟨rfl, rfl⟩ ?_ ?_
  · intro i _ t ht
    exact forLoop_invariant (fun _ t => SameSize s t) ht fun j _ u hu => hkeep _ _ u hu
  · intro i hi t ht
    refine forLoop_accessesIn (fun _ t => SameSize s t) ht (fun j _ u hu => hkeep _ _ u hu) ?_
    intro j hj u hu
    obtain ⟨hindex, hlt⟩ := hr.toNat_round hs hi hj
    have hin : InFramebuffer u
        ((r.y + BitVec.ofNat 32 i) * u.fbWidth + (r.x + BitVec.ofNat 32 j)) := by
      rw [InFramebuffer, hu.1, hu.2, hindex]
      exact hlt
    simp [putPixel, hin]

/-! ## Lists of rectangles -/

/-- The framebuffer as a canvas of `width * height` pixels. -/
def view (width height : ℕ) (s : FbState) : Fin width × Fin height → BitVec 32 :=
  fun p => pixelAt s p.1 p.2

/-- The rectangle as a shape on the canvas. -/
def Rect.Covers {width height : ℕ} (r : Rect) (p : Fin width × Fin height) : Prop :=
  r.Contains p.1 p.2

instance {width height : ℕ} (r : Rect) (p : Fin width × Fin height) : Decidable (r.Covers p) :=
  inferInstanceAs (Decidable (r.Contains p.1 p.2))

/-- Drawing a list of rectangles is painting them on the canvas. -/
theorem view_drawRects {width height : ℕ} {rects : List Rect} {s : FbState} (hs : Addressable s)
    (hwidth : s.fbWidth.toNat = width) (hheight : s.fbHeight.toNat = height)
    (hrects : ∀ r ∈ rects, r.OnScreen s) :
    view width height ((drawRects rects).exec s) =
      runActions (paint Rect.Covers Rect.color) rects (view width height s) := by
  induction rects generalizing s with
  | nil => rfl
  | cons r rects ih =>
    rw [List.forall_mem_cons] at hrects
    have hsame := sameSize_draw r s
    have hdraw : view width height (r.draw.exec s) =
        paint Rect.Covers Rect.color r (view width height s) := by
      funext p
      subst hwidth hheight
      exact hrects.1.pixelAt_draw hs p.1.isLt p.2.isLt
    rw [drawRects, exec_bind, runActions, ← hdraw]
    exact ih (hsame.addressable hs) (by rw [hsame.1, hwidth]) (by rw [hsame.2, hheight])
      fun r' hr' => hsame.onScreen (hrects.2 r' hr')

lemma drawRects_eq_forM (rects : List Rect) : drawRects rects = rects.forM Rect.draw := by
  induction rects with
  | nil => rfl
  | cons r rects ih =>
    rw [drawRects, ih]
    rfl

/-- Every store of a list of calls is inside the framebuffer. -/
lemma drawRects_accessesIn {rects : List Rect} {s : FbState} (hs : Addressable s)
    (hrects : ∀ r ∈ rects, r.OnScreen s) : AccessesIn InFramebuffer (drawRects rects) s := by
  rw [drawRects_eq_forM]
  refine forM_accessesIn (SameSize s) ⟨rfl, rfl⟩ (fun r _ t ht => ?_) fun r hr t ht => ?_
  · exact ht.trans (sameSize_draw r t)
  · exact (ht.onScreen (hrects r hr)).draw_accessesIn (ht.addressable hs)

/-! ## The rectangles of `kernel_main` -/

/-- `DARK_BG`. -/
def darkBg : BitVec 32 := 0x202020#32

/-- `PANEL_BG`. -/
def panelBg : BitVec 32 := 0x2A2A2A#32

/-- `ACCENT`. -/
def accent : BitVec 32 := 0xFF79EE#32

/-- The rectangles of `kernel_main`: background, taskbar and start button. -/
def kernelRects (fbWidth fbHeight : BitVec 32) : List Rect :=
  [⟨0#32, 0#32, fbWidth, fbHeight, darkBg⟩,
    ⟨0#32, fbHeight - 40#32, fbWidth, 40#32, panelBg⟩,
    ⟨10#32, fbHeight - 35#32, 80#32, 30#32, accent⟩]

/-- The framebuffer as `framebuffer.c` describes it, with all pixels black. -/
def grubFramebuffer : FbState := ⟨fun _ => 0#32, 800#32, 600#32⟩

lemma grubFramebuffer_addressable : Addressable grubFramebuffer := by
  constructor <;> decide

/-- A difference of unsigned numbers, read as an `int`. -/
lemma toInt_sub_of_le {a b : BitVec 32} (ha : a.toNat < 2 ^ 31) (hb : b.toNat ≤ a.toNat) :
    (a - b).toInt = a.toNat - b.toNat := by
  have hsub : (a - b).toNat = a.toNat - b.toNat := BitVec.toNat_sub_of_le hb
  rw [BitVec.toInt_eq_toNat_of_lt (by omega), hsub, Nat.cast_sub hb]

/-- Where the screen is large enough the rectangles of `kernel_main` are on it. -/
lemma kernelRects_onScreen {s : FbState} (hs : Addressable s) (hwidth : 90 ≤ s.fbWidth.toNat)
    (hheight : 40 ≤ s.fbHeight.toNat) :
    ∀ r ∈ kernelRects s.fbWidth s.fbHeight, r.OnScreen s := by
  have hw := BitVec.toInt_eq_toNat_of_lt (x := s.fbWidth) (by have := hs.width_lt; omega)
  have hh := BitVec.toInt_eq_toNat_of_lt (x := s.fbHeight) (by have := hs.height_lt; omega)
  have hbar : (s.fbHeight - 40#32).toInt = s.fbHeight.toNat - 40 :=
    toInt_sub_of_le hs.height_lt hheight
  have hbutton : (s.fbHeight - 35#32).toInt = s.fbHeight.toNat - 35 :=
    toInt_sub_of_le hs.height_lt (by rw [BitVec.toNat_ofNat]; omega)
  have hconst : (0#32).toInt = 0 ∧ (10#32).toInt = 10 ∧ (30#32).toInt = 30 ∧ (40#32).toInt = 40 ∧
      (80#32).toInt = 80 := by decide
  obtain ⟨h0, h10, h30, h40, h80⟩ := hconst
  simp only [kernelRects, List.forall_mem_cons, List.not_mem_nil, false_implies, implies_true,
    and_true]
  refine ⟨⟨?_, ?_, ?_, ?_, ?_, ?_⟩, ⟨?_, ?_, ?_, ?_, ?_, ?_⟩, ⟨?_, ?_, ?_, ?_, ?_, ?_⟩⟩
  all_goals
    simp only [hw, hh, hbar, hbutton, h0, h10, h30, h40, h80]
    omega

/-! ## The painter's algorithm -/

/-- **Drawing is the painter's algorithm and stays inside the framebuffer.**  For every size of the
screen that is addressable, every content of the framebuffer and every list of rectangles on the
screen, all stores are inside the framebuffer, and each pixel of the screen ends with the colour of
the last rectangle that contains it, or with its initial colour if none does. -/
theorem drawRects_painter (s : FbState) (hs : Addressable s) (rects : List Rect)
    (hrects : ∀ r ∈ rects, r.OnScreen s) :
    AccessesIn InFramebuffer (drawRects rects) s ∧
    ∀ px py, px < s.fbWidth.toNat → py < s.fbHeight.toNat →
      (∀ before r after, rects = before ++ r :: after → r.Contains px py →
        (∀ r' ∈ after, ¬ r'.Contains px py) →
          pixelAt ((drawRects rects).exec s) px py = r.color) ∧
      ((∀ r ∈ rects, ¬ r.Contains px py) →
        pixelAt ((drawRects rects).exec s) px py = pixelAt s px py) := by
  refine ⟨drawRects_accessesIn hs hrects, fun px py hx hy => ?_⟩
  have hview := view_drawRects hs rfl rfl hrects
  -- the pixel as a position of the canvas
  obtain ⟨p, hp⟩ : ∃ p : Fin s.fbWidth.toNat × Fin s.fbHeight.toNat, p = (⟨px, hx⟩, ⟨py, hy⟩) :=
    ⟨_, rfl⟩
  have hcovers : ∀ r : Rect, r.Covers p ↔ r.Contains px py := fun r => by rw [Rect.Covers, hp]
  have hpixel : pixelAt ((drawRects rects).exec s) px py =
      runActions (paint Rect.Covers Rect.color) rects (view _ _ s) p := by
    rw [← hview, hp, view]
  constructor
  · rintro before r after rfl hr hafter
    rw [hpixel]
    exact paint_run_of_last ((hcovers r).mpr hr)
      (fun r' hr' => fun h => hafter r' hr' ((hcovers r').mp h)) _
  · intro hnone
    have hnot : ∀ r ∈ rects, ¬ r.Covers p := fun r hr h => hnone r hr ((hcovers r).mp h)
    rw [hpixel, paint_run_of_not_covers hnot, hp, view]

/-- The start button of `kernel_main` is over its taskbar. -/
theorem drawRects_painter_start_button :
    pixelAt ((drawRects (kernelRects 800#32 600#32)).exec grubFramebuffer) 20 570 = accent := by
  have hrects : ∀ r ∈ kernelRects 800#32 600#32, r.OnScreen grubFramebuffer :=
    kernelRects_onScreen grubFramebuffer_addressable (by decide) (by decide)
  obtain ⟨-, hpixels⟩ := drawRects_painter grubFramebuffer grubFramebuffer_addressable _ hrects
  obtain ⟨hlast, -⟩ := hpixels 20 570 (by decide) (by decide)
  exact hlast (kernelRects 800#32 600#32).dropLast ⟨10#32, 600#32 - 35#32, 80#32, 30#32, accent⟩ []
    rfl (by decide) (by simp)

/-- `kernel_main` up to the loop in which it halts. -/
def kernelMain : FbM Unit := do
  let fbWidth ← gets FbState.fbWidth
  let fbHeight ← gets FbState.fbHeight
  drawRects (kernelRects fbWidth fbHeight)

/-- **The desktop.**  On every addressable screen of at least 90 by 40 pixels, `kernel_main` shows
the start button over the taskbar over the background. -/
theorem kernelMain_desktop {s : FbState} (hs : Addressable s) (hwidth : 90 ≤ s.fbWidth.toNat)
    (hheight : 40 ≤ s.fbHeight.toNat) {px py : ℕ} (hx : px < s.fbWidth.toNat)
    (hy : py < s.fbHeight.toNat) :
    pixelAt (kernelMain.exec s) px py =
      if 10 ≤ px ∧ px < 90 ∧ s.fbHeight.toNat ≤ py + 35 ∧ py + 5 < s.fbHeight.toNat then accent
      else if s.fbHeight.toNat ≤ py + 40 then panelBg
      else darkBg := by
  have hlt := hs.height_lt
  have hrects := kernelRects_onScreen hs hwidth hheight
  have hview := congrFun (view_drawRects hs rfl rfl hrects) (⟨px, hx⟩, ⟨py, hy⟩)
  have hexec : kernelMain.exec s = (drawRects (kernelRects s.fbWidth s.fbHeight)).exec s := by
    rw [kernelMain, exec_bind, exec_gets, eval_gets, exec_bind, exec_gets, eval_gets]
  simp only [kernelRects, List.forall_mem_cons, List.not_mem_nil, false_implies, implies_true,
    and_true] at hrects
  obtain ⟨hback, hbar, hbutton⟩ := hrects
  have hbar' : (s.fbHeight - 40#32).toNat = s.fbHeight.toNat - 40 := by bv_omega
  have hbutton' : (s.fbHeight - 35#32).toNat = s.fbHeight.toNat - 35 := by bv_omega
  rw [view] at hview
  rw [hexec, hview]
  simp only [kernelRects, runActions, paint, Rect.Covers, hback.contains_iff, hbar.contains_iff,
    hbutton.contains_iff, hbar', hbutton', BitVec.toNat_ofNat]
  refine if_congr ?_ rfl (if_congr ?_ rfl (if_pos ?_))
  all_goals omega

end VVBright
