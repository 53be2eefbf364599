import VVBright.Keyboard.Modifiers

/-!
# What the keys print

The US layout of the keys named in `keyboard.h`, as a function from make codes to legends, and the
characters a sequence of bytes should print according to it.  The tables of the driver agree with
the layout everywhere but at four codes: the entries for the minus and the plus of the keypad stand
one place too late, at the codes of the keypad digits 4 and 1.
-/

namespace VVBright

/-- What a key prints. -/
inductive KeyLegend where
  | silent
  | letter (lower : Char)
  | symbol (plain shifted : Char)

/-- The US layout of the keys of `keyboard.h`: two rows of the digits, the letter rows with their
symbols, and the keypad.  Modifier and lock keys, Escape, function keys, the digits and the period
of the keypad print nothing, as do codes without a key. -/
def usLayout : ℕ → KeyLegend
  -- SCAN_1 to SCAN_EQUALS
  | 0x02 => .symbol '1' '!'
  | 0x03 => .symbol '2' '@'
  | 0x04 => .symbol '3' '#'
  | 0x05 => .symbol '4' '$'
  | 0x06 => .symbol '5' '%'
  | 0x07 => .symbol '6' '^'
  | 0x08 => .symbol '7' '&'
  | 0x09 => .symbol '8' '*'
  | 0x0A => .symbol '9' '('
  | 0x0B => .symbol '0' ')'
  | 0x0C => .symbol '-' '_'
  | 0x0D => .symbol '=' '+'
  -- SCAN_BACKSPACE, SCAN_TAB
  | 0x0E => .symbol (Char.ofNat 0x08) (Char.ofNat 0x08)
  | 0x0F => .symbol (Char.ofNat 0x09) (Char.ofNat 0x09)
  -- SCAN_Q to SCAN_RIGHTBRACKET
  | 0x10 => .letter 'q'
  | 0x11 => .letter 'w'
  | 0x12 => .letter 'e'
  | 0x13 => .letter 'r'
  | 0x14 => .letter 't'
  | 0x15 => .letter 'y'
  | 0x16 => .letter 'u'
  | 0x17 => .letter 'i'
  | 0x18 => .letter 'o'
  | 0x19 => .letter 'p'
  | 0x1A => .symbol '[' (Char.ofNat 0x7B)
  | 0x1B => .symbol ']' (Char.ofNat 0x7D)
  -- SCAN_ENTER
  | 0x1C => .symbol (Char.ofNat 0x0A) (Char.ofNat 0x0A)
  -- SCAN_A to SCAN_GRAVE
  | 0x1E => .letter 'a'
  | 0x1F => .letter 's'
  | 0x20 => .letter 'd'
  | 0x21 => .letter 'f'
  | 0x22 => .letter 'g'
  | 0x23 => .letter 'h'
  | 0x24 => .letter 'j'
  | 0x25 => .letter 'k'
  | 0x26 => .letter 'l'
  | 0x27 => .symbol ';' ':'
  | 0x28 => .symbol (Char.ofNat 0x27) (Char.ofNat 0x22)
  | 0x29 => .symbol (Char.ofNat 0x60) '~'
  -- SCAN_BACKSLASH, then SCAN_Z to SCAN_SLASH
  | 0x2B => .symbol (Char.ofNat 0x5C) '|'
  | 0x2C => .letter 'z'
  | 0x2D => .letter 'x'
  | 0x2E => .letter 'c'
  | 0x2F => .letter 'v'
  | 0x30 => .letter 'b'
  | 0x31 => .letter 'n'
  | 0x32 => .letter 'm'
  | 0x33 => .symbol ',' '<'
  | 0x34 => .symbol '.' '>'
  | 0x35 => .symbol '/' '?'
  -- SCAN_KP_MULTIPLY, SCAN_SPACE, SCAN_KP_MINUS, SCAN_KP_PLUS
  | 0x37 => .symbol '*' '*'
  | 0x39 => .symbol ' ' ' '
  | 0x4A => .symbol '-' '-'
  | 0x4E => .symbol '+' '+'
  | _ => .silent

/-- The characters a key prints: the case of a letter is upper when exactly one of shift and Caps
Lock is on, symbols look at shift alone. -/
def KeyLegend.chars (shift caps : Bool) : KeyLegend → List (BitVec 8)
  | .silent => []
  | .letter lower => [charCode (if shift != caps then lower.toUpper else lower)]
  | .symbol plain shifted => [charCode (if shift then shifted else plain)]

/-- The characters a byte prints: none for a byte with the high bit set. -/
def byteChars (shift caps : Bool) (b : BitVec 8) : List (BitVec 8) :=
  if b.toNat < 128 then (usLayout b.toNat).chars shift caps else []

/-- A reader of the bytes who knows the layout. -/
structure Reader where
  /-- The latest shift byte was a press. -/
  shift : Bool
  /-- The number of Caps Lock bytes. -/
  capsBytes : ℕ
  /-- The characters printed. -/
  printed : List (BitVec 8)

/-- The reader before the first byte. -/
def Reader.start : Reader := ⟨false, 0, []⟩

/-- The reader takes one byte. -/
def readerStep (b : BitVec 8) (r : Reader) : Reader where
  shift :=
    if b = scanLeftshift ∨ b = scanRightshift then true
    else if b = scanLeftshift ||| 0x80#8 ∨ b = scanRightshift ||| 0x80#8 then false
    else r.shift
  capsBytes := if b = scanCapslock then r.capsBytes + 1 else r.capsBytes
  printed := r.printed ++ byteChars r.shift (r.capsBytes % 2 = 1) b

/-- The character an effect prints. -/
def KernelEffect.char? : KernelEffect → Option (BitVec 8)
  | .putchar c => some c
  | _ => none

/-- The characters `keyboard_handler` passes to `terminal_putchar`. -/
def handlerChars (b : BitVec 8) (k : KeyboardState) : List (BitVec 8) :=
  (keyboardHandler b k).2.filterMap KernelEffect.char?

/-- The driver takes one byte; the characters it prints are collected. -/
def printStep (b : BitVec 8) (q : KeyboardState × List (BitVec 8)) :
    KeyboardState × List (BitVec 8) := (driverStep b q.1, q.2 ++ handlerChars b q.1)

/-- The codes at which the tables of the driver differ from the layout: `SCAN_KP_MINUS`, `SCAN_KP4`,
`SCAN_KP_PLUS` and `SCAN_KP1`. -/
def Misplaced (b : BitVec 8) : Prop := b = 0x4A#8 ∨ b = 0x4B#8 ∨ b = 0x4E#8 ∨ b = 0x4F#8

instance (b : BitVec 8) : Decidable (Misplaced b) :=
  inferInstanceAs (Decidable (_ ∨ _))

/-- What is printed depends on the shift byte and the Caps Lock byte only. -/
lemma handlerChars_eq (b : BitVec 8) (k : KeyboardState) :
    handlerChars b k = handlerChars b ⟨k.shiftPressed, 0#8, 0#8, k.capsLock⟩ := by
  rw [handlerChars, handlerChars, keyboardHandler, keyboardHandler]
  by_cases hhigh : b &&& 0x80#8 ≠ 0#8
  · rw [if_pos hhigh, if_pos hhigh]
  · rw [if_neg hhigh, if_neg hhigh]
    have hchar : keyboardScancodeToChar b k =
        keyboardScancodeToChar b ⟨k.shiftPressed, 0#8, 0#8, k.capsLock⟩ := rfl
    have hpress : (handlePress b k).2 =
        (handlePress b ⟨k.shiftPressed, 0#8, 0#8, k.capsLock⟩).2 := by
      rw [handlePress, handlePress, hchar]
      dsimp only
      split_ifs <;> rfl
    exact congrArg (fun effects => (effects ++ [_]).filterMap KernelEffect.char?) hpress

/-- The tables of the driver and the layout agree at all codes but the misplaced ones. -/
lemma handlerChars_eq_byteChars_iff : ∀ (shift caps : Bool) (b : BitVec 8),
    handlerChars b ⟨flagByte shift, 0#8, 0#8, flagByte caps⟩ = byteChars shift caps b ↔
      ¬ Misplaced b := by
  decide +kernel

/-- The shift byte and the Caps Lock byte after one byte from the keyboard. -/
lemma driverStep_shift_caps (b : BitVec 8) (k : KeyboardState) :
    (driverStep b k).shiftPressed =
        (if b = scanLeftshift ∨ b = scanRightshift then 1#8
        else if b = scanLeftshift ||| 0x80#8 ∨ b = scanRightshift ||| 0x80#8 then 0#8
        else k.shiftPressed) ∧
      (driverStep b k).capsLock =
        (if b = scanCapslock then if k.capsLock = 0#8 then 1#8 else 0#8 else k.capsLock) := by
  rcases make_or_release b with hlow | ⟨scancode, hscancode, rfl⟩
  · have hnot : ¬ (b = scanLeftshift ||| 0x80#8 ∨ b = scanRightshift ||| 0x80#8) := by
      revert hlow
      revert b
      decide
    rw [driverStep_press hlow, handlePress_state, if_neg hnot]
    exact ⟨rfl, rfl⟩
  · have hcodes : (scancode ||| 0x80#8 = scanLeftshift ||| 0x80#8 ↔ scancode = scanLeftshift) ∧
        (scancode ||| 0x80#8 = scanRightshift ||| 0x80#8 ↔ scancode = scanRightshift) ∧
        ¬ (scancode ||| 0x80#8 = scanLeftshift ∨ scancode ||| 0x80#8 = scanRightshift) ∧
        scancode ||| 0x80#8 ≠ scanCapslock := by
      revert hscancode
      revert scancode
      decide
    obtain ⟨hleft, hright, hnot, hcaps⟩ := hcodes
    rw [driverStep_release hscancode, handleRelease_eq, if_neg hnot, if_neg hcaps]
    exact ⟨if_congr (or_congr hleft hright).symm rfl rfl, rfl⟩

/-- The driver is in step with the reader. -/
structure ReaderInv (q : Reader × (KeyboardState × List (BitVec 8))) : Prop where
  shift : q.2.1.shiftPressed = flagByte q.1.shift
  caps : q.2.1.capsLock = flagByte (q.1.capsBytes % 2 = 1)
  printed : q.2.2 = q.1.printed

/-- The driver has printed what the layout says. -/
def PrintsLayout (q : Reader × (KeyboardState × List (BitVec 8))) : Prop := q.2.2 = q.1.printed

section

variable {q : Reader × (KeyboardState × List (BitVec 8))} {b : BitVec 8}

/-- In step with the reader, the next byte prints what the layout says exactly when its key is not
misplaced. -/
lemma ReaderInv.prints_iff (h : ReaderInv q) :
    PrintsLayout (pairStep readerStep printStep b q) ↔ ¬ Misplaced b := by
  rw [← handlerChars_eq_byteChars_iff q.1.shift (q.1.capsBytes % 2 = 1) b, ← h.shift, ← h.caps,
    ← handlerChars_eq]
  change q.2.2 ++ handlerChars b q.2.1 = q.1.printed ++ byteChars _ _ b ↔ _
  rw [h.printed, List.append_cancel_left_eq]

/-- A byte whose key is not misplaced keeps the driver in step with the reader. -/
lemma ReaderInv.step (h : ReaderInv q) (hb : ¬ Misplaced b) :
    ReaderInv (pairStep readerStep printStep b q) := by
  obtain ⟨hshift, hcaps⟩ := driverStep_shift_caps b q.2.1
  refine ⟨?_, ?_, h.prints_iff.mpr hb⟩
  · change (driverStep b q.2.1).shiftPressed = flagByte (if _ then true else if _ then false else _)
    rw [hshift, h.shift]
    split_ifs <;> rfl
  · change (driverStep b q.2.1).capsLock =
      flagByte ((if b = scanCapslock then q.1.capsBytes + 1 else q.1.capsBytes) % 2 = 1)
    rw [hcaps, h.caps]
    by_cases hb : b = scanCapslock
    · rw [if_pos hb, if_pos hb]
      rcases Nat.mod_two_eq_zero_or_one q.1.capsBytes with h0 | h1
      · simp [flagByte, h0, Nat.add_mod]
      · simp [flagByte, h1, Nat.add_mod]
    · rw [if_neg hb, if_neg hb]

end

/-- **When every key prints its own character.**  For every sequence of bytes after `keyboard_init`,
the characters passed to `terminal_putchar` are those of the US layout after every byte, exactly
when none of the bytes is the make code of keypad minus, keypad plus, keypad 4 or keypad 1. -/
theorem printsLayout_iff_not_misplaced (k₀ : KeyboardState) (bs : List (BitVec 8)) :
    (∀ pre, pre <+: bs →
      (runActions printStep pre ((keyboardInit k₀).1, [])).2 =
        (runActions readerStep pre Reader.start).printed) ↔
      ∀ b ∈ bs, ¬ Misplaced b := by
  have hstart : ReaderInv (Reader.start, ((keyboardInit k₀).1, [])) := ⟨rfl, rfl, rfl⟩
  have hpair := fun pre => runActions_pairStep readerStep printStep pre Reader.start
    ((keyboardInit k₀).1, [])
  have hgood : (∀ pre, pre <+: bs → (runActions printStep pre ((keyboardInit k₀).1, [])).2 =
      (runActions readerStep pre Reader.start).printed) ↔ ∀ pre, pre <+: bs →
      PrintsLayout (runActions (pairStep readerStep printStep) pre
        (Reader.start, ((keyboardInit k₀).1, []))) := by
    simp only [hpair, PrintsLayout]
  rw [hgood, ← along_actions (pairStep readerStep printStep) bs]
  constructor
  · exact along_of_forall_initial hstart (along_true bs _) (fun b q hq _ hb => hq.step hb)
      (fun b q hq _ hprints => hq.prints_iff.mp hprints)
  · intro hrun pre hpre
    exact (hrun.invariant_initial hstart (fun b q hq hb => ReaderInv.step hq hb) hpre).printed

/-- Keypad minus prints nothing. -/
theorem not_printsLayout_keypad_minus :
    (runActions printStep [0x4A#8] ((keyboardInit ⟨0#8, 0#8, 0#8, 0#8⟩).1, [])).2 = [] ∧
      (runActions readerStep [0x4A#8] Reader.start).printed = [charCode '-'] := by
  decide

end VVBright
