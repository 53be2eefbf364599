import VVBright.Keyboard.Driver

/-!
# Modifier state and physical keys

The keys of the keyboard go up and down; each event reaches the driver as one byte.  The driver
keeps one byte for the two shift keys, set by either press and cleared by either release, so it
follows the keys exactly as long as no shift key is released while the other one is held down.
-/

namespace VVBright

/-- The keys of the keyboard: which are down, and how often Caps Lock has been pressed. -/
structure Keys where
  /-- The key with this make code is down. -/
  down : BitVec 8 → Bool
  /-- The number of presses of Caps Lock. -/
  capsPresses : ℕ

/-- No key is down. -/
def Keys.allUp : Keys := ⟨fun _ => false, 0⟩

/-- What happens to a key. -/
inductive KeyEvent where
  | press (key : BitVec 8)
  | release (key : BitVec 8)

/-- The keys after an event. -/
def keysStep : KeyEvent → Keys → Keys
  | .press key, keys =>
    { down := Function.update keys.down key true
      capsPresses := if key = scanCapslock then keys.capsPresses + 1 else keys.capsPresses }
  | .release key, keys => { keys with down := Function.update keys.down key false }

/-- The byte an event sends: the make code, with the high bit set for a release. -/
def KeyEvent.byte : KeyEvent → BitVec 8
  | .press key => key
  | .release key => key ||| 0x80#8

/-- The key is one of `keyboard.h`. -/
def IsKey (key : BitVec 8) : Prop := 0x01 ≤ key.toNat ∧ key.toNat ≤ 0x53

/-- A key is pressed only while up and released only while down. -/
def ValidEvent : KeyEvent → Keys → Prop
  | .press key, keys => IsKey key ∧ keys.down key = false
  | .release key, keys => IsKey key ∧ keys.down key = true

/-- The driver takes the byte of an event. -/
def eventStep (event : KeyEvent) (k : KeyboardState) : KeyboardState := driverStep event.byte k

/-- The modifier bytes say which modifier keys are down, and whether Caps Lock is on. -/
structure ModifiersFollow (q : Keys × KeyboardState) : Prop where
  /-- `shift_pressed` is 1 exactly when one of the shift keys is down. -/
  shift : q.2.shiftPressed = 1#8 ↔ q.1.down scanLeftshift = true ∨ q.1.down scanRightshift = true
  /-- `ctrl_pressed` is 1 exactly when the left control key is down. -/
  ctrl : q.2.ctrlPressed = 1#8 ↔ q.1.down scanLeftctrl = true
  /-- `alt_pressed` is 1 exactly when the left alt key is down. -/
  alt : q.2.altPressed = 1#8 ↔ q.1.down scanLeftalt = true
  /-- `caps_lock` is 1 exactly when Caps Lock has been pressed an odd number of times. -/
  caps : q.2.capsLock = 1#8 ↔ q.1.capsPresses % 2 = 1

/-- No shift key is released while the other one is down. -/
def ShiftReleasedAlone : KeyEvent → Keys → Prop
  | .press _, _ => True
  | .release key, keys =>
    (key = scanLeftshift → keys.down scanRightshift = false) ∧
      (key = scanRightshift → keys.down scanLeftshift = false)

/-- A condition as a byte. -/
def flagByte (b : Bool) : BitVec 8 := if b then 1#8 else 0#8

lemma flagByte_eq_one {b : Bool} : flagByte b = 1#8 ↔ b = true := by
  cases b <;> decide

/-- A byte that a key sets follows the key through a press. -/
lemma flagByte_press (down : BitVec 8 → Bool) (key m : BitVec 8) :
    (if key = m then 1#8 else flagByte (down m)) = flagByte (Function.update down key true m) := by
  by_cases h : key = m
  · rw [if_pos h, h, Function.update_self]
    rfl
  · rw [if_neg h, Function.update_of_ne (Ne.symm h)]

/-- A byte that a key clears follows the key through a release. -/
lemma flagByte_release (down : BitVec 8 → Bool) (key m : BitVec 8) :
    (if key = m then 0#8 else flagByte (down m)) = flagByte (Function.update down key false m) := by
  by_cases h : key = m
  · rw [if_pos h, h, Function.update_self]
    rfl
  · rw [if_neg h, Function.update_of_ne (Ne.symm h)]

/-- The four bytes are determined by the keys. -/
structure DriverInv (q : Keys × KeyboardState) : Prop where
  shift : q.2.shiftPressed = flagByte (q.1.down scanLeftshift || q.1.down scanRightshift)
  ctrl : q.2.ctrlPressed = flagByte (q.1.down scanLeftctrl)
  alt : q.2.altPressed = flagByte (q.1.down scanLeftalt)
  caps : q.2.capsLock = flagByte (q.1.capsPresses % 2 = 1)

lemma DriverInv.follow {q : Keys × KeyboardState} (h : DriverInv q) : ModifiersFollow q where
  shift := by rw [h.shift, flagByte_eq_one, Bool.or_eq_true]
  ctrl := by rw [h.ctrl, flagByte_eq_one]
  alt := by rw [h.alt, flagByte_eq_one]
  caps := by rw [h.caps, flagByte_eq_one, decide_eq_true_eq]

section

variable {keys : Keys} {k : KeyboardState} {key : BitVec 8}

lemma IsKey.lt_128 (h : IsKey key) : key.toNat < 128 := by
  unfold IsKey at h
  omega

/-- A press keeps the bytes and the keys together. -/
lemma DriverInv.press (h : DriverInv (keys, k)) (hkey : IsKey key) :
    DriverInv (pairStep keysStep eventStep (.press key) (keys, k)) := by
  obtain ⟨hshift, hctrl, halt, hcaps⟩ := h
  dsimp only at hshift hctrl halt hcaps
  rw [pairStep, eventStep, KeyEvent.byte, driverStep_press hkey.lt_128, handlePress_state, keysStep]
  refine ⟨?_, ?_, ?_, ?_⟩ <;> dsimp only
  · rw [hshift]
    by_cases hl : key = scanLeftshift
    · rw [hl, if_pos (Or.inl rfl), Function.update_self]
      rfl
    · by_cases hr : key = scanRightshift
      · rw [hr, if_pos (Or.inr rfl), Function.update_self, Bool.or_true]
        rfl
      · rw [if_neg (not_or.mpr ⟨hl, hr⟩), Function.update_of_ne (Ne.symm hl),
          Function.update_of_ne (Ne.symm hr)]
  · rw [hctrl, flagByte_press]
  · rw [halt, flagByte_press]
  · rw [hcaps]
    by_cases hl : key = scanCapslock
    · rw [if_pos hl, if_pos hl]
      rcases Nat.mod_two_eq_zero_or_one keys.capsPresses with h0 | h1
      · simp [flagByte, h0, Nat.add_mod]
      · simp [flagByte, h1, Nat.add_mod]
    · rw [if_neg hl, if_neg hl]

/-- A release keeps them together, unless it is that of one of two shift keys that are down. -/
lemma DriverInv.release (h : DriverInv (keys, k)) (hkey : IsKey key)
    (halone : ShiftReleasedAlone (.release key) keys) :
    DriverInv (pairStep keysStep eventStep (.release key) (keys, k)) := by
  obtain ⟨hshift, hctrl, halt, hcaps⟩ := h
  obtain ⟨hleft, hright⟩ := halone
  dsimp only at hshift hctrl halt hcaps
  rw [pairStep, eventStep, KeyEvent.byte, driverStep_release hkey.lt_128, handleRelease_eq,
    keysStep]
  refine ⟨?_, ?_, ?_, hcaps⟩ <;> dsimp only
  · rw [hshift]
    by_cases hl : key = scanLeftshift
    · rw [hl, if_pos (Or.inl rfl), Function.update_self, Function.update_of_ne (by decide),
        hleft hl]
      rfl
    · by_cases hr : key = scanRightshift
      · rw [hr, if_pos (Or.inr rfl), Function.update_self, Function.update_of_ne (by decide),
          hright hr]
        rfl
      · rw [if_neg (not_or.mpr ⟨hl, hr⟩), Function.update_of_ne (Ne.symm hl),
          Function.update_of_ne (Ne.symm hr)]
  · rw [hctrl, flagByte_release]
  · rw [halt, flagByte_release]

/-- After the release of a shift key the driver takes both for released. -/
lemma shiftReleasedAlone_of_follow (hkey : IsKey key)
    (hfollow : ModifiersFollow (pairStep keysStep eventStep (.release key) (keys, k))) :
    ShiftReleasedAlone (.release key) keys := by
  have hshift := hfollow.shift
  rw [pairStep, eventStep, KeyEvent.byte, driverStep_release hkey.lt_128, handleRelease_eq,
    keysStep] at hshift
  dsimp only at hshift
  constructor
  · rintro rfl
    rw [if_pos (Or.inl rfl), Function.update_self, Function.update_of_ne (by decide)] at hshift
    simpa using hshift
  · rintro rfl
    rw [if_pos (Or.inr rfl), Function.update_self, Function.update_of_ne (by decide)] at hshift
    simpa using hshift

end

/-- **When the modifier bytes follow the keys.**  For a valid sequence of key events after
`keyboard_init`, the modifier bytes follow the keys after every event exactly when no shift key is
ever released while the other one is down. -/
theorem modifiersFollow_iff_shiftReleasedAlone (k₀ : KeyboardState) (events : List KeyEvent)
    (hvalid : Along keysStep ValidEvent events Keys.allUp) :
    (∀ pre, pre <+: events → ModifiersFollow (runActions keysStep pre Keys.allUp,
      runActions eventStep pre (keyboardInit k₀).1)) ↔
      Along keysStep ShiftReleasedAlone events Keys.allUp := by
  have hstart : DriverInv (Keys.allUp, (keyboardInit k₀).1) := ⟨rfl, rfl, rfl, rfl⟩
  have hpair := fun bs => runActions_pairStep keysStep eventStep bs Keys.allUp (keyboardInit k₀).1
  have hinv : ∀ event q, DriverInv q → ValidEvent event q.1 → ShiftReleasedAlone event q.1 →
      DriverInv (pairStep keysStep eventStep event q) := by
    rintro (key | key) ⟨keys, k⟩ hq hkey halone
    · exact hq.press hkey.1
    · exact hq.release hkey.1 halone
  rw [← along_pairStep_fst keysStep eventStep events Keys.allUp (keyboardInit k₀).1] at hvalid ⊢
  simp only [← hpair]
  constructor
  · refine along_of_forall_initial hstart hvalid hinv ?_
    rintro (key | key) ⟨keys, k⟩ - hkey hfollow
    · trivial
    · exact shiftReleasedAlone_of_follow hkey.1 hfollow
  · intro halone pre hpre
    have hq := (hvalid.and halone).invariant_initial hstart
      (fun event q hq hok => hinv event q hq hok.1 hok.2) hpre
    exact hq.follow

/-- The left shift key is pressed and released, then Caps Lock is pressed. -/
theorem modifiersFollow_shift_then_caps :
    ModifiersFollow (runActions keysStep [.press scanLeftshift, .release scanLeftshift,
      .press scanCapslock] Keys.allUp, runActions eventStep [.press scanLeftshift,
      .release scanLeftshift, .press scanCapslock] (keyboardInit ⟨0#8, 0#8, 0#8, 0#8⟩).1) := by
  have hvalid : Along keysStep ValidEvent [.press scanLeftshift, .release scanLeftshift,
      .press scanCapslock] Keys.allUp :=
    ⟨⟨⟨by decide, by decide⟩, rfl⟩, ⟨⟨by decide, by decide⟩, rfl⟩, ⟨⟨by decide, by decide⟩, rfl⟩,
      trivial⟩
  have halone : Along keysStep ShiftReleasedAlone [.press scanLeftshift, .release scanLeftshift,
      .press scanCapslock] Keys.allUp :=
    ⟨trivial, ⟨fun _ => rfl, fun habs => absurd habs (by decide)⟩, trivial, trivial⟩
  exact (modifiersFollow_iff_shiftReleasedAlone _ _ hvalid).mpr halone _ (List.prefix_refl _)

/-- Both shift keys are pressed and the left one is released: the right one is still down, but
`shift_pressed` is 0. -/
theorem not_modifiersFollow_two_shifts :
    Along keysStep ValidEvent [.press scanLeftshift, .press scanRightshift, .release scanLeftshift]
      Keys.allUp ∧
    ¬ ModifiersFollow (runActions keysStep [.press scanLeftshift, .press scanRightshift,
      .release scanLeftshift] Keys.allUp, runActions eventStep [.press scanLeftshift,
      .press scanRightshift, .release scanLeftshift] (keyboardInit ⟨0#8, 0#8, 0#8, 0#8⟩).1) := by
  refine ⟨⟨⟨⟨by decide, by decide⟩, rfl⟩, ⟨⟨by decide, by decide⟩, rfl⟩,
    ⟨⟨by decide, by decide⟩, rfl⟩, trivial⟩, fun hfollow => ?_⟩
  exact absurd (hfollow.shift.mpr (Or.inr (by decide))) (by decide)

end VVBright
