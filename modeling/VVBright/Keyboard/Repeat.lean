import Mathlib.Dynamics.PeriodicPts.Lemmas
import VVBright.Foundation.Latch
import VVBright.Keyboard.Modifiers

/-!
# Typematic repeat

A key that is held down sends its make code again and again.  The driver does not tell such a copy
from a press.  The shift, control and alt bytes are latches, which a second press leaves as they
are; `caps_lock` is toggled by every copy.  The control and alt bytes are always set while their key
is held.  The shift byte need not be: the release of one shift key clears it for the other as well,
and the copies of the other then set it again.
-/

namespace VVBright

/-- One of the keys was pressed, and none of them has been released since. -/
def PressedLast (keys bytes : List (BitVec 8)) : Prop :=
  LastSet (· ∈ keys) (· ∈ keys.map (· ||| 0x80#8)) bytes

/-- The key's make code was seen and its release code not since. -/
def Held (key : BitVec 8) (bytes : List (BitVec 8)) : Prop := PressedLast [key] bytes

/-- The driver after `keyboard_init` and the given bytes. -/
def driverAfter (k₀ : KeyboardState) (bytes : List (BitVec 8)) : KeyboardState :=
  runActions driverStep bytes (keyboardInit k₀).1

section

variable {f : KeyboardState → BitVec 8} {keys : List (BitVec 8)}

/-- A byte of the driver that the presses of some keys set and their releases clear is a latch. -/
lemma isLatch_driverStep (hkeys : ∀ key ∈ keys, key.toNat < 128)
    (hpress : ∀ key k, f (handlePress key k).1 = if key ∈ keys then 1#8 else f k)
    (hrelease : ∀ key k, f (handleRelease key k) = if key ∈ keys then 0#8 else f k) :
    IsLatch driverStep (fun k => f k = 1#8) (· ∈ keys) (· ∈ keys.map (· ||| 0x80#8)) where
  set key k hkey := by
    rw [driverStep_press (hkeys key hkey), hpress, if_pos hkey]
  clear byte k hbyte := by
    obtain ⟨key, hkey, rfl⟩ := List.mem_map.mp hbyte
    rw [driverStep_release (hkeys key hkey), hrelease, if_pos hkey]
    decide
  keep byte k hset hclear := by
    rcases make_or_release byte with hmake | ⟨key, hkey, rfl⟩
    · rw [driverStep_press hmake, hpress, if_neg hset]
    · have hnot : key ∉ keys := fun hmem => hclear (List.mem_map_of_mem hmem)
      rw [driverStep_release hkey, hrelease, if_neg hnot]

/-- Such a byte is 0 at first, so it is 1 exactly when the last byte of its keys was a press. -/
lemma driverAfter_eq_one_iff (hkeys : ∀ key ∈ keys, key.toNat < 128)
    (hinit : ∀ k₀, f (keyboardInit k₀).1 = 0#8)
    (hpress : ∀ key k, f (handlePress key k).1 = if key ∈ keys then 1#8 else f k)
    (hrelease : ∀ key k, f (handleRelease key k) = if key ∈ keys then 0#8 else f k)
    (k₀ : KeyboardState) (bytes : List (BitVec 8)) :
    f (driverAfter k₀ bytes) = 1#8 ↔ PressedLast keys bytes := by
  have hclear : f (keyboardInit k₀).1 ≠ 1#8 := by
    rw [hinit]
    decide
  exact (isLatch_driverStep hkeys hpress hrelease).run_iff hclear bytes

end

/-- `shift_pressed` is 1 exactly when the last shift byte was a press. -/
lemma shiftPressed_driverAfter (k₀ : KeyboardState) (bytes : List (BitVec 8)) :
    (driverAfter k₀ bytes).shiftPressed = 1#8 ↔
      PressedLast [scanLeftshift, scanRightshift] bytes := by
  refine driverAfter_eq_one_iff (by decide) (fun _ => rfl) ?_ ?_ k₀ bytes <;> intro key k
  · simp only [handlePress_state, List.mem_pair]
  · simp only [handleRelease_eq, List.mem_pair]

/-- `ctrl_pressed` is 1 exactly while the left control key is held. -/
lemma ctrlPressed_driverAfter (k₀ : KeyboardState) (bytes : List (BitVec 8)) :
    (driverAfter k₀ bytes).ctrlPressed = 1#8 ↔ Held scanLeftctrl bytes := by
  refine driverAfter_eq_one_iff (by decide) (fun _ => rfl) ?_ ?_ k₀ bytes <;> intro key k
  · simp only [handlePress_state, List.mem_singleton]
  · simp only [handleRelease_eq, List.mem_singleton]

/-- `alt_pressed` is 1 exactly while the left alt key is held. -/
lemma altPressed_driverAfter (k₀ : KeyboardState) (bytes : List (BitVec 8)) :
    (driverAfter k₀ bytes).altPressed = 1#8 ↔ Held scanLeftalt bytes := by
  refine driverAfter_eq_one_iff (by decide) (fun _ => rfl) ?_ ?_ k₀ bytes <;> intro key k
  · simp only [handlePress_state, List.mem_singleton]
  · simp only [handleRelease_eq, List.mem_singleton]

/-- `caps_lock` is 0 or 1. -/
def CapsIsFlag (k : KeyboardState) : Prop := k.capsLock = 0#8 ∨ k.capsLock = 1#8

lemma CapsIsFlag.driverStep {k : KeyboardState} (hcaps : CapsIsFlag k) (byte : BitVec 8) :
    CapsIsFlag (driverStep byte k) := by
  rcases make_or_release byte with hmake | ⟨key, hkey, rfl⟩
  · rw [driverStep_press hmake, handlePress_state, CapsIsFlag]
    dsimp only
    split_ifs
    · exact Or.inr rfl
    · exact Or.inl rfl
    · exact hcaps
  · rw [driverStep_release hkey, handleRelease_eq]
    exact hcaps

lemma capsIsFlag_driverAfter (k₀ : KeyboardState) (bytes : List (BitVec 8)) :
    CapsIsFlag (driverAfter k₀ bytes) :=
  (along_true bytes _).invariant (Or.inl rfl) fun byte _ hcaps _ => hcaps.driverStep byte

section

variable {k : KeyboardState} {key : BitVec 8} {bytes : List (BitVec 8)} {n : ℕ}

/-! ## Copies of a make code -/

/-- A press changes nothing if it sets a byte that is set already. -/
lemma driverStep_fixed (hkey : key.toNat < 128) (hcaps : key ≠ scanCapslock)
    (hctrl : key = scanLeftctrl → k.ctrlPressed = 1#8)
    (halt : key = scanLeftalt → k.altPressed = 1#8)
    (hshift : key = scanLeftshift ∨ key = scanRightshift → k.shiftPressed = 1#8) :
    driverStep key k = k := by
  have hset : ∀ {p : Prop} [Decidable p] {b : BitVec 8}, (p → b = 1#8) →
      (if p then 1#8 else b) = b := by
    intro p _ b hb
    split_ifs with hp
    · exact (hb hp).symm
    · rfl
  rw [driverStep_press hkey, handlePress_state, hset hshift, hset hctrl, hset halt, if_neg hcaps]

/-- Copies of a key other than Caps Lock change nothing exactly when the key is no shift key or
`shift_pressed` is set. -/
lemma iterate_driverStep_of_ne_caps (hkey : key.toNat < 128) (hcaps : key ≠ scanCapslock)
    (hctrl : key = scanLeftctrl → k.ctrlPressed = 1#8)
    (halt : key = scanLeftalt → k.altPressed = 1#8) (hn : n ≠ 0) :
    (driverStep key)^[n] k = k ↔
      (key = scanLeftshift ∨ key = scanRightshift → k.shiftPressed = 1#8) := by
  constructor
  · intro hfix hshift
    obtain ⟨m, rfl⟩ := Nat.exists_eq_succ_of_ne_zero hn
    -- The last copy has set the byte, and the state after it is the state before them all.
    rw [← hfix, Function.iterate_succ_apply', driverStep_press hkey, handlePress_state]
    exact if_pos hshift
  · intro hshift
    exact Function.iterate_fixed (driverStep_fixed hkey hcaps hctrl halt hshift) n

/-- Copies of Caps Lock change nothing exactly when their number is even. -/
lemma iterate_driverStep_caps (hcaps : CapsIsFlag k) :
    (driverStep scanCapslock)^[n] k = k ↔ n % 2 = 0 := by
  have hstep : ∀ k, driverStep scanCapslock k =
      { k with capsLock := if k.capsLock = 0#8 then 1#8 else 0#8 } := fun k => rfl
  have htwice : Function.IsPeriodicPt (driverStep scanCapslock) 2 k := by
    show driverStep scanCapslock (driverStep scanCapslock k) = k
    obtain ⟨shift, ctrl, alt, caps⟩ := k
    rw [hstep, hstep]
    rcases hcaps with hcaps | hcaps <;> cases hcaps <;> rfl
  have honce : ¬ Function.IsFixedPt (driverStep scanCapslock) k := by
    intro hfix
    have hsame := congrArg KeyboardState.capsLock ((hstep k).symm.trans hfix)
    dsimp only at hsame
    rcases hcaps with hcaps | hcaps <;> rw [hcaps] at hsame <;> exact absurd hsame (by decide)
  have hperiod := Function.minimalPeriod_eq_prime htwice honce
  rw [← Nat.dvd_iff_mod_eq_zero, ← hperiod, ← Function.isPeriodicPt_iff_minimalPeriod_dvd]
  rfl

/-- Whether the copies of a held key leave the driver's state as it is. -/
lemma driverAfter_append_replicate (k₀ : KeyboardState) (hkey : IsKey key)
    (hheld : Held key bytes) :
    driverAfter k₀ (bytes ++ List.replicate n key) = driverAfter k₀ bytes ↔
      n = 0 ∨ ((key = scanCapslock → n % 2 = 0) ∧
        (key = scanLeftshift ∨ key = scanRightshift →
          PressedLast [scanLeftshift, scanRightshift] bytes)) := by
  have hctrl : key = scanLeftctrl → (driverAfter k₀ bytes).ctrlPressed = 1#8 := by
    rintro rfl
    exact (ctrlPressed_driverAfter k₀ bytes).mpr hheld
  have halt : key = scanLeftalt → (driverAfter k₀ bytes).altPressed = 1#8 := by
    rintro rfl
    exact (altPressed_driverAfter k₀ bytes).mpr hheld
  rw [driverAfter, runActions_append, runActions_replicate, ← driverAfter,
    ← shiftPressed_driverAfter k₀]
  by_cases hn : n = 0
  · subst hn
    exact iff_of_true rfl (Or.inl rfl)
  rw [or_iff_right hn]
  by_cases hcaps : key = scanCapslock
  · subst hcaps
    rw [iterate_driverStep_caps (capsIsFlag_driverAfter k₀ bytes), forall_prop_of_true rfl]
    exact (and_iff_left fun hshift => absurd hshift (by decide)).symm
  · rw [iterate_driverStep_of_ne_caps hkey.lt_128 hcaps hctrl halt hn]
    exact (and_iff_right fun heq => absurd heq hcaps).symm

end

/-- **When typematic repeat leaves the keyboard state alone.**  Into any sequence of bytes after
`keyboard_init`, at a point where a key is held, `n` copies of its make code are inserted.  The four
bytes are the same at that point and at every later one exactly when no copy is inserted, or the
number of copies is even if the key is Caps Lock, and the last shift byte before them is a press if
the key is a shift key. -/
theorem driverAfter_repeat_iff (k₀ : KeyboardState) (before rest : List (BitVec 8)) (key : BitVec 8)
    (hkey : IsKey key) (hheld : Held key before) (n : ℕ) :
    (∀ mid, mid <+: rest → driverAfter k₀ (before ++ List.replicate n key ++ mid) =
        driverAfter k₀ (before ++ mid)) ↔
      n = 0 ∨ ((key = scanCapslock → n % 2 = 0) ∧
        (key = scanLeftshift ∨ key = scanRightshift →
          PressedLast [scanLeftshift, scanRightshift] before)) := by
  rw [← driverAfter_append_replicate k₀ hkey hheld]
  constructor
  · intro hsame
    simpa only [List.append_nil] using hsame [] List.nil_prefix
  · intro hsame mid _
    rw [driverAfter, runActions_append, ← driverAfter, hsame, driverAfter, driverAfter,
      runActions_append]

/-- The key `A` is held and sends three more copies; then the left shift key is pressed. -/
theorem driverAfter_repeat_letter :
    driverAfter ⟨0#8, 0#8, 0#8, 0#8⟩ ([0x1E#8] ++ List.replicate 3 0x1E#8 ++ [scanLeftshift]) =
      driverAfter ⟨0#8, 0#8, 0#8, 0#8⟩ ([0x1E#8] ++ [scanLeftshift]) := by
  have hheld : Held 0x1E#8 [0x1E#8] := ⟨[], 0x1E#8, [], rfl, by simp, by simp⟩
  refine (driverAfter_repeat_iff _ _ [scanLeftshift] _ ⟨by decide, by decide⟩ hheld 3).mpr
    (Or.inr ⟨?_, ?_⟩) _ (List.prefix_refl _)
  · exact fun heq => absurd heq (by decide)
  · exact fun heq => absurd heq (by decide)

/-- Caps Lock is held and sends one more copy: `caps_lock` is 0 again. -/
theorem not_driverAfter_repeat_caps :
    IsKey scanCapslock ∧ Held scanCapslock [scanCapslock] ∧
      driverAfter ⟨0#8, 0#8, 0#8, 0#8⟩ ([scanCapslock] ++ List.replicate 1 scanCapslock ++ []) ≠
        driverAfter ⟨0#8, 0#8, 0#8, 0#8⟩ ([scanCapslock] ++ []) := by
  refine ⟨⟨by decide, by decide⟩, ⟨[], scanCapslock, [], rfl, by simp, by simp⟩, ?_⟩
  decide

end VVBright
