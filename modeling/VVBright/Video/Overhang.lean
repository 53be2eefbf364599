import VVBright.Video.Drawing

/-!
# Rectangles that leave the screen

`draw_rect` does not clip.  A pixel to the right of the screen has the index of a pixel further down
on the left, so a rectangle that overhangs the right edge comes back in the rows below
(`drawRect_overhang`), and it is only its last pixel that decides whether the rectangle stays inside
the framebuffer.

`kernel_main` relies on this on narrow screens, and on 40 rows on every screen: the places of its
taskbar and its button are differences of unsigned numbers.  `kernelMain_inside_iff` is the exact
condition on the size of the screen.
-/

namespace VVBright

open Traced

/-! ## Stores of any rectangle -/

/-- The condition depends on the framebuffer through its size alone. -/
def OfSize (P : FbState → BitVec 32 → Prop) : Prop :=
  ∀ s t, SameSize s t → ∀ index, P t index ↔ P s index

lemma inFramebuffer_ofSize : OfSize InFramebuffer := by
  intro s t hst index
  rw [InFramebuffer, InFramebuffer, hst.1, hst.2]

section

variable {P : FbState → BitVec 32 → Prop} (hP : OfSize P)

include hP

/-- The indices that `draw_rect` stores to. -/
lemma drawRect_accessesIn_iff (x y w h color : BitVec 32) (s : FbState) :
    AccessesIn P (drawRect x y w h color) s ↔
      ∀ i < intRounds y h, ∀ j < intRounds x w,
        P s ((y + BitVec.ofNat 32 i) * s.fbWidth + (x + BitVec.ofNat 32 j)) := by
  have hkeep : ∀ (x y : BitVec 32) (t : FbState), SameSize s t →
      SameSize s ((putPixel x y color).exec t) := fun x y t ht => ht
  refine forLoop_accessesIn_iff (SameSize s) ⟨rfl, rfl⟩ ?_ ?_
  · intro i _ t ht
    exact forLoop_invariant (fun _ t => SameSize s t) ht fun j _ u hu => hkeep _ _ u hu
  · intro i _ t ht
    refine forLoop_accessesIn_iff (SameSize s) ht (fun j _ u hu => hkeep _ _ u hu) ?_
    intro j _ u hu
    simp [putPixel, hu.1, hP s u hu]

/-- Where a rectangle is stored depends on the size of the screen alone. -/
lemma SameSize.draw_accessesIn_iff {s t : FbState} (hst : SameSize s t) (r : Rect) :
    AccessesIn P r.draw t ↔ AccessesIn P r.draw s := by
  rw [Rect.draw, drawRect_accessesIn_iff hP, drawRect_accessesIn_iff hP]
  simp only [hst.1, hP s t hst]

/-- The condition holds for a list of rectangles exactly when it does for each of them. -/
lemma drawRects_accessesIn_iff (rects : List Rect) (s : FbState) :
    AccessesIn P (drawRects rects) s ↔ ∀ r ∈ rects, AccessesIn P r.draw s := by
  induction rects generalizing s with
  | nil => simp [drawRects]
  | cons r rects ih =>
    rw [drawRects, accessesIn_bind, ih, List.forall_mem_cons]
    refine and_congr_right fun _ => forall₂_congr fun r' _ => ?_
    exact (sameSize_draw r s).draw_accessesIn_iff hP r'

/-- The stores of `kernel_main` are those of its three rectangles. -/
lemma kernelMain_accessesIn_iff (s : FbState) : AccessesIn P kernelMain s ↔
    AccessesIn P (drawRect 0#32 0#32 s.fbWidth s.fbHeight darkBg) s ∧
      AccessesIn P (drawRect 0#32 (s.fbHeight - 40#32) s.fbWidth 40#32 panelBg) s ∧
      AccessesIn P (drawRect 10#32 (s.fbHeight - 35#32) 80#32 30#32 accent) s := by
  have hmain : AccessesIn P kernelMain s ↔
      AccessesIn P (drawRects (kernelRects s.fbWidth s.fbHeight)) s := by
    rw [kernelMain, accessesIn_bind, accessesIn_bind]
    simp
  rw [hmain, drawRects_accessesIn_iff hP]
  simp only [kernelRects, List.forall_mem_cons, List.not_mem_nil, false_implies, implies_true,
    and_true, Rect.draw]

end

/-! ## Overhanging rectangles -/

/-- A rectangle whose coordinates are not negative and whose indices on the screen of `s` are 32-bit
numbers. -/
structure Rect.Plain (r : Rect) (s : FbState) : Prop where
  x_nonneg : 0 ≤ r.x.toInt
  y_nonneg : 0 ≤ r.y.toInt
  w_nonneg : 0 ≤ r.w.toInt
  h_nonneg : 0 ≤ r.h.toInt
  right_lt : r.x.toInt + r.w.toInt < 2 ^ 31
  bottom_lt : r.y.toInt + r.h.toInt < 2 ^ 31
  index_le : (r.y.toNat + r.h.toNat) * s.fbWidth.toNat + (r.x.toNat + r.w.toNat) ≤ 2 ^ 32

/-- The pixel is shown by the rectangle, in its own place or `k` rows further down. -/
def Rect.Shows (r : Rect) (width px py : ℕ) : Prop :=
  ∃ k ≤ py, r.Contains (px + k * width) (py - k)

section

variable {r : Rect} {s : FbState} (hr : r.Plain s)

include hr

lemma Rect.Plain.contains_iff (px py : ℕ) : r.Contains px py ↔
    (r.x.toNat ≤ px ∧ px < r.x.toNat + r.w.toNat) ∧
      r.y.toNat ≤ py ∧ py < r.y.toNat + r.h.toNat := by
  rw [Rect.Contains, toNat_of_toInt_nonneg hr.x_nonneg, toNat_of_toInt_nonneg hr.y_nonneg,
    toNat_of_toInt_nonneg hr.w_nonneg, toNat_of_toInt_nonneg hr.h_nonneg]
  omega

lemma Rect.Plain.rounds : intRounds r.x r.w = r.w.toNat ∧ intRounds r.y r.h = r.h.toNat :=
  ⟨intRounds_eq hr.x_nonneg hr.w_nonneg hr.right_lt,
    intRounds_eq hr.y_nonneg hr.h_nonneg hr.bottom_lt⟩

/-- The index computed in a round of the loops. -/
lemma Rect.Plain.toNat_round {i j : ℕ} (hi : i < r.h.toNat) (hj : j < r.w.toNat) :
    ((r.y + BitVec.ofNat 32 i) * s.fbWidth + (r.x + BitVec.ofNat 32 j)).toNat =
      (r.y.toNat + i) * s.fbWidth.toNat + (r.x.toNat + j) := by
  have hright := hr.right_lt
  have hbottom := hr.bottom_lt
  rw [toNat_of_toInt_nonneg hr.x_nonneg, toNat_of_toInt_nonneg hr.w_nonneg] at hright
  rw [toNat_of_toInt_nonneg hr.y_nonneg, toNat_of_toInt_nonneg hr.h_nonneg] at hbottom
  have hx : (r.x + BitVec.ofNat 32 j).toNat = r.x.toNat + j := by bv_omega
  have hy : (r.y + BitVec.ofNat 32 i).toNat = r.y.toNat + i := by bv_omega
  have hrow : (r.y.toNat + i) * s.fbWidth.toNat ≤
      (r.y.toNat + r.h.toNat) * s.fbWidth.toNat := Nat.mul_le_mul_right _ (by omega)
  have hle := hr.index_le
  rw [toNat_index, hx, hy]
  rw [hx, hy]
  omega

/-- The rectangle stays inside the framebuffer exactly when its last pixel does. -/
lemma Rect.Plain.draw_accessesIn_iff : AccessesIn InFramebuffer r.draw s ↔
    r.w.toNat = 0 ∨ r.h.toNat = 0 ∨
      (r.y.toNat + r.h.toNat - 1) * s.fbWidth.toNat + (r.x.toNat + r.w.toNat - 1) <
        s.fbWidth.toNat * s.fbHeight.toNat := by
  obtain ⟨hw, hh⟩ := hr.rounds
  rw [Rect.draw, drawRect_accessesIn_iff inFramebuffer_ofSize, hw, hh]
  constructor
  · intro hall
    by_cases hw0 : r.w.toNat = 0
    · exact Or.inl hw0
    by_cases hh0 : r.h.toNat = 0
    · exact Or.inr (Or.inl hh0)
    have hlast := hall (r.h.toNat - 1) (by omega) (r.w.toNat - 1) (by omega)
    rw [InFramebuffer, hr.toNat_round (by omega) (by omega), ← Nat.add_sub_assoc (by omega),
      ← Nat.add_sub_assoc (by omega)] at hlast
    exact Or.inr (Or.inr hlast)
  · intro hlast i hi j hj
    rw [InFramebuffer, hr.toNat_round hi hj]
    have hlast' := (hlast.resolve_left (by omega)).resolve_left (by omega)
    have hrow : (r.y.toNat + i) * s.fbWidth.toNat ≤
        (r.y.toNat + r.h.toNat - 1) * s.fbWidth.toNat := Nat.mul_le_mul_right _ (by omega)
    omega

/-- The loops pass the index of a pixel exactly when the rectangle shows the pixel. -/
lemma Rect.Plain.round_iff {px py : ℕ} (hx : px < s.fbWidth.toNat)
    (hindex : py * s.fbWidth.toNat + px < 2 ^ 32) :
    (∃ i < intRounds r.y r.h, ∃ j < intRounds r.x r.w,
      BitVec.ofNat 32 (py * s.fbWidth.toNat + px) =
        (r.y + BitVec.ofNat 32 i) * s.fbWidth + (r.x + BitVec.ofNat 32 j)) ↔
      r.Shows s.fbWidth.toNat px py := by
  obtain ⟨hw, hh⟩ := hr.rounds
  have hpixel : (BitVec.ofNat 32 (py * s.fbWidth.toNat + px)).toNat =
      py * s.fbWidth.toNat + px := by
    rw [BitVec.toNat_ofNat]
    exact Nat.mod_eq_of_lt hindex
  rw [hw, hh]
  constructor
  · rintro ⟨i, hi, j, hj, heq⟩
    have heq' := congrArg BitVec.toNat heq
    rw [hpixel, hr.toNat_round hi hj] at heq'
    -- the row of the pixel is not above the row of the loop
    have hle : r.y.toNat + i ≤ py := by
      by_contra hlt
      have hrow : (py + 1) * s.fbWidth.toNat ≤ (r.y.toNat + i) * s.fbWidth.toNat :=
        Nat.mul_le_mul_right _ (by omega)
      rw [Nat.add_mul, Nat.one_mul] at hrow
      omega
    obtain ⟨k, rfl⟩ := Nat.exists_eq_add_of_le hle
    rw [Nat.add_mul (r.y.toNat + i) k] at heq'
    refine ⟨k, Nat.le_add_left _ _, (hr.contains_iff _ _).mpr ?_⟩
    omega
  · rintro ⟨k, hk, hcontains⟩
    obtain ⟨⟨hx1, hx2⟩, hy1, hy2⟩ := (hr.contains_iff _ _).mp hcontains
    refine ⟨py - k - r.y.toNat, by omega, px + k * s.fbWidth.toNat - r.x.toNat, by omega, ?_⟩
    apply BitVec.eq_of_toNat_eq
    rw [hpixel, hr.toNat_round (by omega) (by omega), Nat.add_sub_cancel' hy1,
      Nat.add_sub_cancel' hx1]
    obtain ⟨q, rfl⟩ := Nat.exists_eq_add_of_le' hk
    rw [Nat.add_sub_cancel, Nat.add_mul]
    omega

end

/-- **Rectangles come back in the rows below.**  Let a rectangle with coordinates that are not
negative be drawn on an addressable screen, however far it overhangs, as long as its indices are
32-bit numbers.  All stores are inside the framebuffer exactly when the rectangle is empty or the
index of its last pixel is; and a pixel of the screen gets the colour exactly when the rectangle
contains the point `k` rows up and `k` screen widths to the right of it, for some `k`. -/
theorem drawRect_overhang (s : FbState) (hs : Addressable s) (r : Rect) (hr : r.Plain s) :
    (AccessesIn InFramebuffer r.draw s ↔ r.w.toNat = 0 ∨ r.h.toNat = 0 ∨
      (r.y.toNat + r.h.toNat - 1) * s.fbWidth.toNat + (r.x.toNat + r.w.toNat - 1) <
        s.fbWidth.toNat * s.fbHeight.toNat) ∧
    ∀ px py, px < s.fbWidth.toNat → py < s.fbHeight.toNat →
      (r.Shows s.fbWidth.toNat px py → pixelAt (r.draw.exec s) px py = r.color) ∧
      (¬ r.Shows s.fbWidth.toNat px py → pixelAt (r.draw.exec s) px py = pixelAt s px py) := by
  refine ⟨hr.draw_accessesIn_iff, fun px py hx hy => ?_⟩
  have hround := hr.round_iff hx ((index_lt hx hy).trans_le hs.area_le)
  rw [Rect.draw, exec_drawRect, pixelAt]
  constructor
  · intro hshows
    exact if_pos (hround.mpr hshows)
  · intro hnot
    exact if_neg fun hcon => hnot (hround.mp hcon)

/-- On a screen 60 pixels wide the start button comes back in the next row on the left. -/
theorem drawRect_overhang_button :
    pixelAt ((Rect.draw ⟨10#32, 65#32, 80#32, 30#32, accent⟩).exec ⟨fun _ => 0#32, 60#32, 100#32⟩)
      29 66 = accent := by
  have hplain : Rect.Plain ⟨10#32, 65#32, 80#32, 30#32, accent⟩
      ⟨fun _ => 0#32, 60#32, 100#32⟩ := by
    constructor <;> decide
  refine ((drawRect_overhang ⟨fun _ => 0#32, 60#32, 100#32⟩ (by constructor <;> decide) _ hplain).2
    29 66 (by decide) (by decide)).1 ⟨1, by norm_num, by decide⟩

/-! ## The rectangles of `kernel_main` on any screen -/

/-- A loop over coordinates that do not overflow, negative ones among them. -/
lemma intRounds_of_bounds {lo n : BitVec 32} (hlow : -2 ^ 31 ≤ lo.toInt + n.toInt)
    (hhigh : lo.toInt + n.toInt < 2 ^ 31) : intRounds lo n = n.toInt.toNat := by
  have hsum : (lo + n).toInt = lo.toInt + n.toInt := by
    rw [BitVec.toInt_add]
    exact Int.bmod_eq_of_le (by omega) (by omega)
  rw [intRounds, hsum]
  congr 1
  omega

/-- A row counted from the bottom of a screen, as an `int`; it is negative when the screen is too
low. -/
lemma toInt_sub_of_small {height d : BitVec 32} (hheight : height.toNat < 2 ^ 16)
    (hd : d.toNat ≤ 40) : (height - d).toInt = height.toNat - d.toNat := by
  have h1 : height.toInt = height.toNat := BitVec.toInt_eq_toNat_of_lt (by omega)
  have h2 : d.toInt = d.toNat := BitVec.toInt_eq_toNat_of_lt (by omega)
  rw [BitVec.toInt_sub, h1, h2]
  exact Int.bmod_eq_of_le (by omega) (by omega)

/-- The rows of a rectangle that is placed from the bottom. -/
lemma intRounds_from_bottom {height d n : BitVec 32} (hheight : height.toNat < 2 ^ 16)
    (hd : d.toNat ≤ 40) (hn : n.toNat ≤ 40) : intRounds (height - d) n = n.toNat := by
  have htop := toInt_sub_of_small hheight hd
  have hint : n.toInt = n.toNat := BitVec.toInt_eq_toNat_of_lt (by omega)
  rw [intRounds_of_bounds, hint, Int.toNat_natCast]
  · rw [htop, hint]
    omega
  · rw [htop, hint]
    omega

section

variable {s : FbState} (hwidth : s.fbWidth.toNat < 2 ^ 16) (hheight : s.fbHeight.toNat < 2 ^ 16)

include hwidth hheight

lemma addressable_of_small : Addressable s := by
  refine ⟨by omega, by omega, ?_⟩
  calc s.fbWidth.toNat * s.fbHeight.toNat ≤ 2 ^ 16 * 2 ^ 16 := Nat.mul_le_mul hwidth.le hheight.le
    _ = 2 ^ 32 := by norm_num

/-- On a screen with fewer than 40 rows the taskbar starts above it. -/
lemma taskbar_outside (hlow : s.fbHeight.toNat < 40) (hpos : 0 < s.fbWidth.toNat) :
    ¬ AccessesIn InFramebuffer (drawRect 0#32 (s.fbHeight - 40#32) s.fbWidth 40#32 panelBg) s := by
  rw [drawRect_accessesIn_iff inFramebuffer_ofSize]
  intro hall
  have hrows : intRounds (s.fbHeight - 40#32) 40#32 = 40 :=
    intRounds_from_bottom hheight (by decide) (by decide)
  have hcolumns : intRounds 0#32 s.fbWidth = s.fbWidth.toNat := by
    have hint : s.fbWidth.toInt = s.fbWidth.toNat := BitVec.toInt_eq_toNat_of_lt (by omega)
    refine intRounds_eq (by decide) (by omega) ?_
    rw [hint, show (0#32).toInt = 0 from rfl]
    omega
  have hfirst := hall 0 (by rw [hrows]; norm_num) 0 (by rw [hcolumns]; exact hpos)
  -- the index of the first pixel is 40 rows before the end of the buffer, modulo `2 ^ 32`
  have hindex : ((s.fbHeight - 40#32 + BitVec.ofNat 32 0) * s.fbWidth +
      (0#32 + BitVec.ofNat 32 0)).toNat =
        (2 ^ 32 - (40 - s.fbHeight.toNat)) * s.fbWidth.toNat % 2 ^ 32 := by
    have hsub : (s.fbHeight - 40#32).toNat = 2 ^ 32 - (40 - s.fbHeight.toNat) := by bv_omega
    simp [BitVec.toNat_mul, hsub]
  have hdistr : (40 - s.fbHeight.toNat) * s.fbWidth.toNat =
      40 * s.fbWidth.toNat - s.fbWidth.toNat * s.fbHeight.toNat := by
    rw [Nat.sub_mul, Nat.mul_comm s.fbHeight.toNat]
  have hless : s.fbWidth.toNat * s.fbHeight.toNat ≤ s.fbWidth.toNat * 39 :=
    Nat.mul_le_mul_left _ (by omega)
  have hmod : (2 ^ 32 * s.fbWidth.toNat -
      (40 * s.fbWidth.toNat - s.fbWidth.toNat * s.fbHeight.toNat)) % 2 ^ 32 =
        2 ^ 32 - (40 * s.fbWidth.toNat - s.fbWidth.toNat * s.fbHeight.toNat) := by
    have hsplit : 2 ^ 32 * s.fbWidth.toNat -
        (40 * s.fbWidth.toNat - s.fbWidth.toNat * s.fbHeight.toNat) =
          2 ^ 32 * (s.fbWidth.toNat - 1) +
            (2 ^ 32 - (40 * s.fbWidth.toNat - s.fbWidth.toNat * s.fbHeight.toNat)) := by
      omega
    rw [hsplit, Nat.mul_add_mod]
    exact Nat.mod_eq_of_lt (by omega)
  rw [InFramebuffer, hindex, Nat.sub_mul, hdistr, hmod] at hfirst
  omega

end

/-- The indices of the start button on a screen with at least 40 rows. -/
lemma button_accessesIn_iff {s : FbState} (hwidth : s.fbWidth.toNat < 2 ^ 16)
    (hheight : s.fbHeight.toNat < 2 ^ 16) (hrows : 40 ≤ s.fbHeight.toNat) :
    AccessesIn InFramebuffer (drawRect 10#32 (s.fbHeight - 35#32) 80#32 30#32 accent) s ↔
      15 ≤ s.fbWidth.toNat := by
  have htop : (s.fbHeight - 35#32).toNat = s.fbHeight.toNat - 35 := by bv_omega
  have hplain : Rect.Plain ⟨10#32, s.fbHeight - 35#32, 80#32, 30#32, accent⟩ s := by
    have hint := toInt_sub_of_small (d := 35#32) hheight (by decide)
    have hconst : (10#32).toInt = 10 ∧ (80#32).toInt = 80 ∧ (30#32).toInt = 30 ∧
        (35#32).toNat = 35 := by decide
    obtain ⟨h10, h80, h30, h35⟩ := hconst
    have harea : (s.fbHeight.toNat - 35 + 30) * s.fbWidth.toNat ≤ 2 ^ 16 * (2 ^ 16 - 1) :=
      Nat.mul_le_mul (by omega) (by omega)
    refine ⟨?_, ?_, ?_, ?_, ?_, ?_, ?_⟩ <;> dsimp only
    · decide
    · rw [hint, h35]
      omega
    · decide
    · decide
    · decide
    · rw [hint, h30, h35]
      omega
    · rw [htop]
      simp only [BitVec.toNat_ofNat, Nat.reducePow, Nat.reduceMod] at harea ⊢
      omega
  have hiff := hplain.draw_accessesIn_iff
  rw [Rect.draw] at hiff
  rw [hiff]
  dsimp only
  -- the last row of the button is the sixth from below
  have hsplit : s.fbWidth.toNat * s.fbHeight.toNat =
      (s.fbHeight.toNat - 6) * s.fbWidth.toNat + 6 * s.fbWidth.toNat := by
    rw [← Nat.add_mul, Nat.mul_comm, Nat.sub_add_cancel (by omega)]
  have hlast : (s.fbHeight - 35#32).toNat + (30#32).toNat - 1 = s.fbHeight.toNat - 6 := by
    rw [htop, BitVec.toNat_ofNat]
    omega
  rw [hlast, hsplit]
  simp only [BitVec.toNat_ofNat]
  omega

/-- A screen without columns has no place for the start button. -/
lemma button_outside_of_width_zero {s : FbState} (hheight : s.fbHeight.toNat < 2 ^ 16)
    (hzero : s.fbWidth.toNat = 0) :
    ¬ AccessesIn InFramebuffer (drawRect 10#32 (s.fbHeight - 35#32) 80#32 30#32 accent) s := by
  rw [drawRect_accessesIn_iff inFramebuffer_ofSize]
  intro hall
  have hrows : intRounds (s.fbHeight - 35#32) 30#32 = 30 :=
    intRounds_from_bottom hheight (by decide) (by decide)
  have hfirst := hall 0 (by rw [hrows]; norm_num) 0 (by decide)
  rw [InFramebuffer, hzero, Nat.zero_mul] at hfirst
  exact absurd hfirst (Nat.not_lt_zero _)

/-- The background and the taskbar are on every screen with at least 40 rows. -/
lemma background_taskbar_onScreen {s : FbState} (hs : Addressable s)
    (hrows : 40 ≤ s.fbHeight.toNat) :
    Rect.OnScreen ⟨0#32, 0#32, s.fbWidth, s.fbHeight, darkBg⟩ s ∧
      Rect.OnScreen ⟨0#32, s.fbHeight - 40#32, s.fbWidth, 40#32, panelBg⟩ s := by
  have hw : s.fbWidth.toInt = s.fbWidth.toNat :=
    BitVec.toInt_eq_toNat_of_lt (by have := hs.width_lt; omega)
  have hh : s.fbHeight.toInt = s.fbHeight.toNat :=
    BitVec.toInt_eq_toNat_of_lt (by have := hs.height_lt; omega)
  have hbar : (s.fbHeight - 40#32).toInt = s.fbHeight.toNat - 40 :=
    toInt_sub_of_le hs.height_lt hrows
  have h0 : (0#32).toInt = 0 := by decide
  have h40 : (40#32).toInt = 40 := by decide
  refine ⟨⟨?_, ?_, ?_, ?_, ?_, ?_⟩, ⟨?_, ?_, ?_, ?_, ?_, ?_⟩⟩
  all_goals
    simp only [hw, hh, hbar, h0, h40]
    omega

/-- On a screen that is large enough all three rectangles stay inside. -/
lemma kernelMain_accessesIn {s : FbState} (hwidth : s.fbWidth.toNat < 2 ^ 16)
    (hheight : s.fbHeight.toNat < 2 ^ 16) (hcolumns : 15 ≤ s.fbWidth.toNat)
    (hrows : 40 ≤ s.fbHeight.toNat) : AccessesIn InFramebuffer kernelMain s := by
  have hs := addressable_of_small hwidth hheight
  obtain ⟨hback, hbar⟩ := background_taskbar_onScreen hs hrows
  have hinside := hback.draw_accessesIn hs
  have hinside' := hbar.draw_accessesIn hs
  rw [Rect.draw] at hinside hinside'
  rw [kernelMain_accessesIn_iff inFramebuffer_ofSize]
  exact ⟨hinside, hinside', (button_accessesIn_iff hwidth hheight hrows).mpr hcolumns⟩

/-- **How large the screen has to be.**  On a screen whose width and height are below `2 ^ 16`,
whatever it shows, `kernel_main` stores inside the framebuffer only if and only if the screen has at
least 40 rows and at least 15 columns.  A start button that is too wide comes back in the rows below
it, of which there are five. -/
theorem kernelMain_inside_iff (s : FbState) (hwidth : s.fbWidth.toNat < 2 ^ 16)
    (hheight : s.fbHeight.toNat < 2 ^ 16) :
    AccessesIn InFramebuffer kernelMain s ↔ 15 ≤ s.fbWidth.toNat ∧ 40 ≤ s.fbHeight.toNat := by
  constructor
  · intro hinside
    obtain ⟨-, hbar, hbutton⟩ := (kernelMain_accessesIn_iff inFramebuffer_ofSize s).mp hinside
    have hrows : 40 ≤ s.fbHeight.toNat := by
      by_contra hlow
      by_cases hpos : 0 < s.fbWidth.toNat
      · exact taskbar_outside hwidth hheight (by omega) hpos hbar
      · exact button_outside_of_width_zero hheight (by omega) hbutton
    exact ⟨(button_accessesIn_iff hwidth hheight hrows).mp hbutton, hrows⟩
  · rintro ⟨hcolumns, hrows⟩
    exact kernelMain_accessesIn hwidth hheight hcolumns hrows

/-- The screen that `framebuffer.c` describes is large enough. -/
theorem kernelMain_inside_grub : AccessesIn InFramebuffer kernelMain grubFramebuffer :=
  (kernelMain_inside_iff grubFramebuffer (by decide) (by decide)).mpr ⟨by decide, by decide⟩

end VVBright
