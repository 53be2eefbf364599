import VVBright.Foundation.ByteMemory
import VVBright.Foundation.Runs

/-!
# The keyboard driver

`keyboard.c`: the four modifier bytes, the two scancode tables and `keyboard_handler`.  What the
driver does to the rest of the kernel, characters for the terminal, bytes for ports and an installed
handler, is returned as a list of effects in the order in which they happen.
-/

namespace VVBright

/-- What the driver asks the rest of the kernel to do. -/
inductive KernelEffect where
  | putchar (c : BitVec 8)
  | outb (port : BitVec 16) (value : BitVec 8)
  | writestring (message : String)
  | irqInstallHandler (irq : BitVec 8)
  deriving DecidableEq

/-- `keyboard_state_t`. -/
structure KeyboardState where
  /-- `shift_pressed`. -/
  shiftPressed : BitVec 8
  /-- `ctrl_pressed`. -/
  ctrlPressed : BitVec 8
  /-- `alt_pressed`. -/
  altPressed : BitVec 8
  /-- `caps_lock`. -/
  capsLock : BitVec 8
  deriving DecidableEq

/-- `SCAN_LEFTCTRL`. -/
def scanLeftctrl : BitVec 8 := 0x1D#8

/-- `SCAN_LEFTSHIFT`. -/
def scanLeftshift : BitVec 8 := 0x2A#8

/-- `SCAN_RIGHTSHIFT`. -/
def scanRightshift : BitVec 8 := 0x36#8

/-- `SCAN_LEFTALT`. -/
def scanLeftalt : BitVec 8 := 0x38#8

/-- `SCAN_CAPSLOCK`. -/
def scanCapslock : BitVec 8 := 0x3A#8

/-- `scancode_table`, up to the zeros that fill it.  The codes written as numbers are backspace,
tab, newline, the apostrophe, the grave accent and the backslash. -/
def scancodeTable : List (BitVec 8) :=
  [0, 0] ++ ['1', '2', '3', '4', '5', '6', '7', '8', '9', '0', '-', '='].map charCode ++
  [0x08, 0x09] ++ ['q', 'w', 'e', 'r', 't', 'y', 'u', 'i', 'o', 'p', '[', ']'].map charCode ++
  [0x0A, 0] ++ ['a', 's', 'd', 'f', 'g', 'h', 'j', 'k', 'l', ';'].map charCode ++
  [0x27, 0x60, 0, 0x5C] ++ ['z', 'x', 'c', 'v', 'b', 'n', 'm', ',', '.', '/'].map charCode ++
  [0, charCode '*', 0, charCode ' '] ++ List.replicate 17 0 ++
  [charCode '-', 0, 0, 0, charCode '+'] ++ List.replicate 12 0

/-- `scancode_shift_table`, up to the zeros that fill it.  The codes written as numbers are
backspace, tab, newline, the braces, the quotation mark, the tilde and the bar. -/
def scancodeShiftTable : List (BitVec 8) :=
  [0, 0] ++ ['!', '@', '#', '$', '%', '^', '&', '*', '(', ')', '_', '+'].map charCode ++
  [0x08, 0x09] ++ ['Q', 'W', 'E', 'R', 'T', 'Y', 'U', 'I', 'O', 'P'].map charCode ++
  [0x7B, 0x7D, 0x0A, 0] ++ ['A', 'S', 'D', 'F', 'G', 'H', 'J', 'K', 'L', ':'].map charCode ++
  [0x22, 0x7E, 0, 0x7C] ++ ['Z', 'X', 'C', 'V', 'B', 'N', 'M', '<', '>', '?'].map charCode ++
  [0, charCode '*', 0, charCode ' '] ++ List.replicate 17 0 ++
  [charCode '-', 0, 0, 0, charCode '+'] ++ List.replicate 12 0

/-- `lo <= c && c <= hi` for signed characters. -/
def charBetween (lo c hi : BitVec 8) : Bool := lo.sle c && c.sle hi

/-- `keyboard_scancode_to_char`. -/
def keyboardScancodeToChar (scancode : BitVec 8) (k : KeyboardState) : BitVec 8 :=
  if scancode.toNat ≥ 128 then
    0#8
  else
    let table := if k.shiftPressed ≠ 0#8 then scancodeShiftTable else scancodeTable
    let c := table.getD scancode.toNat 0#8
    if charBetween (charCode 'a') c (charCode 'z') ∧ k.capsLock ≠ 0#8 then
      c - (charCode 'a' - charCode 'A')
    else if charBetween (charCode 'A') c (charCode 'Z') ∧ k.capsLock ≠ 0#8 then
      c + (charCode 'a' - charCode 'A')
    else
      c

/-- `keyboard_init`. -/
def keyboardInit (_ : KeyboardState) : KeyboardState × List KernelEffect :=
  (⟨0#8, 0#8, 0#8, 0#8⟩,
    [.writestring "Initializing keyboard...\n", .irqInstallHandler 1#8,
      .writestring "Keyboard ready\n"])

/-- The switch of `keyboard_handler` for key releases. -/
def handleRelease (scancode : BitVec 8) (k : KeyboardState) : KeyboardState :=
  if scancode = scanLeftshift ∨ scancode = scanRightshift then { k with shiftPressed := 0#8 }
  else if scancode = scanLeftctrl then { k with ctrlPressed := 0#8 }
  else if scancode = scanLeftalt then { k with altPressed := 0#8 }
  else k

/-- The switch of `keyboard_handler` for key presses. -/
def handlePress (scancode : BitVec 8) (k : KeyboardState) : KeyboardState × List KernelEffect :=
  if scancode = scanLeftshift ∨ scancode = scanRightshift then ({ k with shiftPressed := 1#8 }, [])
  else if scancode = scanLeftctrl then ({ k with ctrlPressed := 1#8 }, [])
  else if scancode = scanLeftalt then ({ k with altPressed := 1#8 }, [])
  else if scancode = scanCapslock then
    ({ k with capsLock := if k.capsLock = 0#8 then 1#8 else 0#8 }, [])
  else
    let c := keyboardScancodeToChar scancode k
    if c ≠ 0#8 then (k, [.putchar c]) else (k, [])

/-- `keyboard_handler`, for the byte read from port `0x60`. -/
def keyboardHandler (scancode : BitVec 8) (k : KeyboardState) :
    KeyboardState × List KernelEffect :=
  let eoi := KernelEffect.outb 0x20#16 0x20#8
  if scancode &&& 0x80#8 ≠ 0#8 then
    (handleRelease (scancode &&& 0x7F#8) k, [eoi])
  else
    let (k', effects) := handlePress scancode k
    (k', effects ++ [eoi])

/-- The driver after one more byte. -/
def driverStep (scancode : BitVec 8) (k : KeyboardState) : KeyboardState :=
  (keyboardHandler scancode k).1

/-- Every byte is a make code or a release code. -/
lemma make_or_release (byte : BitVec 8) :
    byte.toNat < 128 ∨ ∃ key : BitVec 8, key.toNat < 128 ∧ byte = key ||| 0x80#8 := by
  have hbits : ∀ b : BitVec 8, b.toNat < 128 ∨
      (b &&& 0x7F#8).toNat < 128 ∧ b = (b &&& 0x7F#8) ||| 0x80#8 := by
    decide
  exact (hbits byte).imp_right fun h => ⟨byte &&& 0x7F#8, h⟩

lemma driverStep_press {scancode : BitVec 8} (h : scancode.toNat < 128) (k : KeyboardState) :
    driverStep scancode k = (handlePress scancode k).1 := by
  have hbit : scancode &&& 0x80#8 = 0#8 := by
    revert h
    revert scancode
    decide
  rw [driverStep, keyboardHandler, if_neg (not_not.mpr hbit)]

lemma driverStep_release {scancode : BitVec 8} (h : scancode.toNat < 128) (k : KeyboardState) :
    driverStep (scancode ||| 0x80#8) k = handleRelease scancode k := by
  have hbits : (scancode ||| 0x80#8) &&& 0x80#8 ≠ 0#8 ∧
      (scancode ||| 0x80#8) &&& 0x7F#8 = scancode := by
    revert h
    revert scancode
    decide
  rw [driverStep, keyboardHandler, if_pos hbits.1, hbits.2]

/-- Each modifier byte after a press; the codes of the modifier keys are all different. -/
lemma handlePress_state (scancode : BitVec 8) (k : KeyboardState) :
    (handlePress scancode k).1 =
      { shiftPressed := if scancode = scanLeftshift ∨ scancode = scanRightshift then 1#8
          else k.shiftPressed
        ctrlPressed := if scancode = scanLeftctrl then 1#8 else k.ctrlPressed
        altPressed := if scancode = scanLeftalt then 1#8 else k.altPressed
        capsLock := if scancode = scanCapslock then if k.capsLock = 0#8 then 1#8 else 0#8
          else k.capsLock } := by
  rw [handlePress]
  by_cases hshift : scancode = scanLeftshift ∨ scancode = scanRightshift
  · rcases hshift with rfl | rfl <;> rfl
  · by_cases hctrl : scancode = scanLeftctrl
    · subst hctrl
      rfl
    · by_cases halt : scancode = scanLeftalt
      · subst halt
        rfl
      · by_cases hcaps : scancode = scanCapslock
        · subst hcaps
          rfl
        · simp only [if_neg hshift, if_neg hctrl, if_neg halt, if_neg hcaps]
          split <;> rfl

/-- Each modifier byte after a release. -/
lemma handleRelease_eq (scancode : BitVec 8) (k : KeyboardState) :
    handleRelease scancode k =
      { k with
        shiftPressed := if scancode = scanLeftshift ∨ scancode = scanRightshift then 0#8
          else k.shiftPressed
        ctrlPressed := if scancode = scanLeftctrl then 0#8 else k.ctrlPressed
        altPressed := if scancode = scanLeftalt then 0#8 else k.altPressed } := by
  rw [handleRelease]
  by_cases hshift : scancode = scanLeftshift ∨ scancode = scanRightshift
  · rcases hshift with rfl | rfl <;> rfl
  · by_cases hctrl : scancode = scanLeftctrl
    · subst hctrl
      rfl
    · by_cases halt : scancode = scanLeftalt
      · subst halt
        rfl
      · simp only [if_neg hshift, if_neg hctrl, if_neg halt]

end VVBright
