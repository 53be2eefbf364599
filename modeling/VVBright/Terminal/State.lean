import VVBright.Foundation.Traced

/-!
# The text terminal

`terminal.c`: the cursor, the current colour and the 80 by 25 text buffer, and the functions that
write to it.  `size_t` is 32 bits wide, so the cursor counters and the buffer indices are numbers
modulo `2 ^ 32`.  Every access to the buffer is recorded with its index.

The scrolling loops work in place; `exec_scrollUp` and `exec_clearLastLine` say what they amount to,
and `exec_terminalPutchar` gives `terminal_putchar` as one change of state, `putcharState`.
-/

namespace VVBright

open Traced

/-- `VGA_WIDTH`. -/
def vgaWidth : ℕ := 80

/-- `VGA_HEIGHT`. -/
def vgaHeight : ℕ := 25

/-- `VGA_COLOR_BLACK`. -/
def vgaColorBlack : BitVec 32 := 0#32

/-- `VGA_COLOR_LIGHT_GREY`. -/
def vgaColorLightGrey : BitVec 32 := 7#32

/-- The character `'\n'`. -/
def newline : BitVec 8 := 10#8

/-- The character `' '`. -/
def space : BitVec 8 := 32#8

/-- `vga_entry`.  A `char` is signed, so its conversion to 16 bits extends the sign. -/
def vgaEntry (c : BitVec 8) (color : BitVec 32) : BitVec 16 :=
  c.signExtend 16 ||| color.setWidth 16 <<< 8

/-- The character of a buffer entry. -/
def entryChar (entry : BitVec 16) : BitVec 8 := entry.setWidth 8

/-- The static variables of `terminal.c` and the text buffer. -/
structure TerminalState where
  /-- `terminal_row`. -/
  row : ℕ
  /-- `terminal_column`. -/
  column : ℕ
  /-- `terminal_color`. -/
  color : BitVec 32
  /-- The entries of `terminal_buffer`. -/
  buffer : ℕ → BitVec 16

/-- The variables and the buffer before any initialisation, all zero. -/
def blankTerminal : TerminalState := ⟨0, 0, 0#32, fun _ => 0#16⟩

/-- Computations of `terminal.c`. -/
abbrev TermM (α : Type) := Traced TerminalState ℕ α

/-- `y * VGA_WIDTH + x` as a `size_t`. -/
def cellIndex (x y : ℕ) : ℕ := (y * vgaWidth + x) % 2 ^ 32

/-- `terminal_buffer[index]` as a value. -/
def readCell (index : ℕ) : TermM (BitVec 16) := do
  touch index
  gets fun s => s.buffer index

/-- `terminal_buffer[index] = entry`. -/
def writeCell (index : ℕ) (entry : BitVec 16) : TermM Unit := do
  touch index
  modify fun s => { s with buffer := Function.update s.buffer index entry }

/-- `terminal_initialize`. -/
def terminalInitialize : TermM Unit := do
  modify fun s => { s with
    row := 0
    column := 0
    color := vgaColorLightGrey ||| vgaColorBlack <<< 4 }
  forLoop vgaHeight fun y => forLoop vgaWidth fun x => do
    let color ← gets TerminalState.color
    writeCell (cellIndex x y) (vgaEntry space color)

/-- `terminal_setcolor`. -/
def terminalSetcolor (color : BitVec 32) : TermM Unit := modify fun s => { s with color := color }

/-- `terminal_putentryat`. -/
def terminalPutentryat (c : BitVec 8) (color : BitVec 32) (x y : ℕ) : TermM Unit :=
  writeCell (cellIndex x y) (vgaEntry c color)

/-- The loop of `terminal_putchar` that moves every row up by one. -/
def scrollUp : TermM Unit :=
  forLoop (vgaHeight - 1) fun y => forLoop vgaWidth fun x => do
    let entry ← readCell (cellIndex x (y + 1))
    writeCell (cellIndex x y) entry

/-- The loop of `terminal_putchar` that clears the last row. -/
def clearLastLine : TermM Unit :=
  forLoop vgaWidth fun x => do
    let color ← gets TerminalState.color
    writeCell (cellIndex x (vgaHeight - 1)) (vgaEntry space color)

/-- The scrolling part of `terminal_putchar`. -/
def scrollIfBelow : TermM Unit := do
  let row ← gets TerminalState.row
  if row ≥ vgaHeight then do
    scrollUp
    clearLastLine
    modify fun s => { s with row := vgaHeight - 1 }
  else
    pure ()

/-- The end of `terminal_putchar`: move the cursor to the next column, or to the next row. -/
def advanceCursor : TermM Unit := do
  modify fun s => { s with column := (s.column + 1) % 2 ^ 32 }
  let column ← gets TerminalState.column
  if column = vgaWidth then
    modify fun s => { s with column := 0, row := (s.row + 1) % 2 ^ 32 }
  else
    pure ()

/-- `terminal_putchar`. -/
def terminalPutchar (c : BitVec 8) : TermM Unit :=
  if c = newline then
    modify fun s => { s with column := 0, row := (s.row + 1) % 2 ^ 32 }
  else do
    scrollIfBelow
    let color ← gets TerminalState.color
    let column ← gets TerminalState.column
    let row ← gets TerminalState.row
    terminalPutentryat c color column row
    advanceCursor

/-- `terminal_write`, for the bytes `data` points to; a null byte ends the string. -/
def terminalWrite : List (BitVec 8) → TermM Unit
  | [] => pure ()
  | c :: data =>
    if c = 0#8 then
      pure ()
    else do
      terminalPutchar c
      terminalWrite data

/-- `terminal_writestring`. -/
def terminalWritestring (data : List (BitVec 8)) : TermM Unit := terminalWrite data

/-! ## The loops -/

/-- The index of a cell of the screen. -/
lemma cellIndex_eq {x y : ℕ} (hx : x < 80) (hy : y < 25) : cellIndex x y = 80 * y + x := by
  rw [cellIndex, vgaWidth, Nat.mod_eq_of_lt (by omega), Nat.mul_comm]

lemma cellIndex_lt {x y : ℕ} (hx : x < 80) (hy : y < 25) :
    cellIndex x y < vgaWidth * vgaHeight := by
  rw [cellIndex_eq hx hy, vgaWidth, vgaHeight]
  omega

@[simp] lemma eval_readCell (i : ℕ) (s : TerminalState) : (readCell i).eval s = s.buffer i := rfl

@[simp] lemma exec_readCell (i : ℕ) (s : TerminalState) : (readCell i).exec s = s := rfl

@[simp] lemma exec_writeCell (i : ℕ) (v : BitVec 16) (s : TerminalState) :
    (writeCell i v).exec s = { s with buffer := Function.update s.buffer i v } := rfl

@[simp] lemma accessesIn_readCell (P : TerminalState → ℕ → Prop) (i : ℕ) (s : TerminalState) :
    AccessesIn P (readCell i) s ↔ P s i := by
  simp [readCell]

@[simp] lemma accessesIn_writeCell (P : TerminalState → ℕ → Prop) (i : ℕ) (v : BitVec 16)
    (s : TerminalState) : AccessesIn P (writeCell i v) s ↔ P s i := by
  simp [writeCell]

/-- The state with another buffer. -/
def withBuffer (s : TerminalState) (b : ℕ → BitVec 16) : TerminalState := { s with buffer := b }

@[simp] lemma withBuffer_self (s : TerminalState) : withBuffer s s.buffer = s := rfl

/-- A loop over the cells of `h` rows, where the round for the cell `i` makes the buffer `b i` into
`b (i + 1)`. -/
lemma exec_rows (h : ℕ) (body : ℕ → ℕ → TermM Unit) (s : TerminalState)
    (b : ℕ → ℕ → BitVec 16)
    (hbody : ∀ y < h, ∀ x < 80, (body y x).exec (withBuffer s (b (80 * y + x))) =
      withBuffer s (b (80 * y + x + 1))) :
    (forLoop h fun y => forLoop vgaWidth (body y)).exec (withBuffer s (b 0)) =
      withBuffer s (b (80 * h)) := by
  refine forLoop_invariant (fun y t => t = withBuffer s (b (80 * y))) rfl ?_
  rintro y hy t rfl
  have hrow := forLoop_invariant (n := 80) (fun x t => t = withBuffer s (b (80 * y + x)))
    (s := withBuffer s (b (80 * y))) rfl fun x hx t ht => by rw [ht]; exact hbody y hy x hx
  rw [Nat.mul_add]
  exact hrow

/-- Overwriting the next cell of a region that is filled from the front. -/
lemma update_filled (old new : ℕ → BitVec 16) (i : ℕ) :
    Function.update (fun j => if j < i then new j else old j) i (new i) =
      fun j => if j < i + 1 then new j else old j := by
  funext j
  rcases Nat.lt_trichotomy j i with hlt | rfl | hgt
  · rw [Function.update_of_ne hlt.ne, if_pos hlt, if_pos (by omega)]
  · rw [Function.update_self, if_pos (Nat.lt_succ_self j)]
  · rw [Function.update_of_ne hgt.ne', if_neg (by omega), if_neg (by omega)]

/-- The in-place copy moves every row up by one: the source of a cell lies ahead of it and has not
been overwritten when it is read. -/
theorem exec_scrollUp (s : TerminalState) :
    scrollUp.exec s = withBuffer s fun i => if i < 1920 then s.buffer (i + 80) else s.buffer i := by
  have hrows := exec_rows 24 (fun y x => do
      let entry ← readCell (cellIndex x (y + 1))
      writeCell (cellIndex x y) entry) s
    (fun n i => if i < n then s.buffer (i + 80) else s.buffer i) ?_
  · simp only [Nat.not_lt_zero, if_false, withBuffer_self] at hrows
    exact hrows
  · intro y hy x hx
    rw [exec_bind, exec_readCell, eval_readCell, exec_writeCell, cellIndex_eq hx (by omega),
      cellIndex_eq hx (by omega)]
    have hsource : (withBuffer s fun i => if i < 80 * y + x then s.buffer (i + 80)
        else s.buffer i).buffer (80 * (y + 1) + x) = s.buffer (80 * y + x + 80) := by
      change (if 80 * (y + 1) + x < 80 * y + x then _ else _) = _
      rw [if_neg (by omega)]
      congr 1
      omega
    rw [hsource]
    exact congrArg (withBuffer s) (update_filled s.buffer (fun i => s.buffer (i + 80)) (80 * y + x))

theorem exec_clearLastLine (s : TerminalState) :
    clearLastLine.exec s = withBuffer s fun i =>
      if 1920 ≤ i ∧ i < 2000 then vgaEntry space s.color else s.buffer i := by
  refine forLoop_invariant (n := 80) (fun x t => t = withBuffer s fun i =>
    if 1920 ≤ i ∧ i < 1920 + x then vgaEntry space s.color else s.buffer i) ?_ ?_
  · have hnone : ∀ i, ¬ (1920 ≤ i ∧ i < 1920 + 0) := by omega
    simp only [hnone, if_false]
    rfl
  · rintro x hx t rfl
    rw [exec_bind, exec_gets, eval_gets, exec_writeCell, vgaHeight, cellIndex_eq hx (by omega)]
    refine congrArg (withBuffer s) (funext fun j => ?_)
    by_cases hj : j = 80 * (25 - 1) + x
    · subst hj
      rw [Function.update_self, if_pos (by omega)]
      rfl
    · rw [Function.update_of_ne hj]
      change (if 1920 ≤ j ∧ j < 1920 + x then _ else _) = _
      refine if_congr ?_ rfl rfl
      omega

/-- `terminal_initialize` puts the cursor in the upper left corner and blanks the screen. -/
theorem exec_terminalInitialize (s : TerminalState) :
    terminalInitialize.exec s =
      { row := 0, column := 0, color := 7#32,
        buffer := fun i => if i < 2000 then vgaEntry space 7#32 else s.buffer i } := by
  have hcolor : vgaColorLightGrey ||| vgaColorBlack <<< 4 = 7#32 := by decide
  rw [terminalInitialize, exec_bind, exec_modify, hcolor]
  have hrows := exec_rows 25 (fun y x => do
      let color ← gets TerminalState.color
      writeCell (cellIndex x y) (vgaEntry space color))
    { s with row := 0, column := 0, color := 7#32 }
    (fun n i => if i < n then vgaEntry space 7#32 else s.buffer i) ?_
  · simp only [Nat.not_lt_zero, if_false] at hrows
    exact hrows
  · intro y hy x hx
    rw [exec_bind, exec_gets, eval_gets, exec_writeCell, cellIndex_eq hx hy]
    exact congrArg (withBuffer _)
      (update_filled s.buffer (fun _ => vgaEntry space 7#32) (80 * y + x))

/-! ## `terminal_putchar` as a change of state -/

/-- The state after `'\n'`. -/
def newlineState (s : TerminalState) : TerminalState :=
  { s with column := 0, row := (s.row + 1) % 2 ^ 32 }

/-- The state after the scrolling part of `terminal_putchar`. -/
def scrollState (s : TerminalState) : TerminalState :=
  if 25 ≤ s.row then
    { s with
      row := 24
      buffer := fun i =>
        if i < 1920 then s.buffer (i + 80)
        else if i < 2000 then vgaEntry space s.color
        else s.buffer i }
  else
    s

/-- The state after a character has been put at the cursor and the cursor has moved on. -/
def placeState (c : BitVec 8) (s : TerminalState) : TerminalState :=
  { s with
    buffer := Function.update s.buffer (cellIndex s.column s.row) (vgaEntry c s.color)
    column := if (s.column + 1) % 2 ^ 32 = 80 then 0 else (s.column + 1) % 2 ^ 32
    row := if (s.column + 1) % 2 ^ 32 = 80 then (s.row + 1) % 2 ^ 32 else s.row }

/-- The state after `terminal_putchar`. -/
def putcharState (c : BitVec 8) (s : TerminalState) : TerminalState :=
  if c = newline then newlineState s else placeState c (scrollState s)

lemma column_scrollState (s : TerminalState) : (scrollState s).column = s.column := by
  rw [scrollState]
  split <;> rfl

lemma color_scrollState (s : TerminalState) : (scrollState s).color = s.color := by
  rw [scrollState]
  split <;> rfl

/-- After the scrolling part the cursor is in a row of the screen, wherever it was. -/
lemma row_scrollState_lt (s : TerminalState) : (scrollState s).row < 25 := by
  rw [scrollState]
  split
  · exact Nat.lt_succ_self 24
  · exact Nat.lt_of_not_le ‹_›

/-- The column stays on the screen and the colour stays as it is. -/
lemma column_putcharState_lt {s : TerminalState} {c : BitVec 8} (hcol : s.column < 80) :
    (putcharState c s).column < 80 ∧ (putcharState c s).color = s.color := by
  rw [putcharState]
  split
  · exact ⟨by rw [newlineState]; norm_num, rfl⟩
  · rw [placeState]
    dsimp only
    rw [column_scrollState, color_scrollState, Nat.mod_eq_of_lt (by omega)]
    refine ⟨?_, rfl⟩
    split <;> omega

lemma exec_scrollIfBelow (s : TerminalState) : scrollIfBelow.exec s = scrollState s := by
  rw [scrollIfBelow, exec_bind, exec_gets, eval_gets, scrollState]
  by_cases h : 25 ≤ s.row
  · rw [if_pos (show s.row ≥ vgaHeight from h), if_pos h, exec_bind, exec_bind, exec_scrollUp,
      exec_clearLastLine, exec_modify]
    simp only [withBuffer, vgaHeight, TerminalState.mk.injEq, true_and]
    funext i
    by_cases h1 : i < 1920
    · rw [if_pos h1, if_neg (by omega), if_pos h1]
    · rw [if_neg h1, if_neg h1]
      refine if_congr ?_ rfl rfl
      omega
  · rw [if_neg (show ¬ s.row ≥ vgaHeight from h), if_neg h, exec_pure]

lemma exec_advanceCursor (s : TerminalState) :
    advanceCursor.exec s =
      { s with
        column := if (s.column + 1) % 2 ^ 32 = 80 then 0 else (s.column + 1) % 2 ^ 32
        row := if (s.column + 1) % 2 ^ 32 = 80 then (s.row + 1) % 2 ^ 32 else s.row } := by
  rw [advanceCursor, exec_bind, exec_modify, exec_bind, eval_gets, exec_gets, vgaWidth]
  by_cases h : (s.column + 1) % 2 ^ 32 = 80
  · rw [if_pos h, if_pos h, if_pos h, exec_modify]
  · rw [if_neg h, if_neg h, if_neg h, exec_pure]

/-- `terminal_putchar` as one change of state. -/
theorem exec_terminalPutchar (c : BitVec 8) (s : TerminalState) :
    (terminalPutchar c).exec s = putcharState c s := by
  rw [terminalPutchar, putcharState]
  by_cases hc : c = newline
  · rw [if_pos hc, if_pos hc, exec_modify, newlineState]
  · rw [if_neg hc, if_neg hc, exec_bind, exec_scrollIfBelow, exec_bind, eval_gets, exec_gets,
      exec_bind, eval_gets, exec_gets, exec_bind, eval_gets, exec_gets, exec_bind,
      terminalPutentryat, exec_writeCell, exec_advanceCursor]
    rfl

end VVBright
