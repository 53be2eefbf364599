import VVBright.Foundation.Runs
import VVBright.Terminal.State

/-!
# Nothing is overwritten before it scrolls off

A run of the terminal is a list of calls.  `TermInv n` is what holds after `n` characters: the row
is at most `n`, a cursor below the screen is in column 0, and every cell from the cursor on shows a
space.  One character moves what was written before the cursor up by at most one row and does not
touch it otherwise (`putchar_keeps`), so a string moves it up by the number of scrolls it performs.
-/

namespace VVBright

open Traced

/-! ## Calls -/

/-- The calls of `terminal.c` after `terminal_initialize`. -/
inductive TerminalCall where
  | putchar (c : BitVec 8)
  | write (data : List (BitVec 8))
  | writestring (data : List (BitVec 8))
  | setcolor (color : BitVec 32)

/-- The computation of a call. -/
def TerminalCall.run : TerminalCall → TermM Unit
  | .putchar c => terminalPutchar c
  | .write data => terminalWrite data
  | .writestring data => terminalWritestring data
  | .setcolor color => terminalSetcolor color

/-- One call. -/
def terminalStep (call : TerminalCall) (s : TerminalState) : TerminalState := call.run.exec s

/-- The characters of a C string: those before the null byte. -/
def cString (data : List (BitVec 8)) : List (BitVec 8) := data.takeWhile fun c => c ≠ 0#8

lemma cString_cons_of_null {c : BitVec 8} (hc : c = 0#8) {data : List (BitVec 8)} :
    cString (c :: data) = [] :=
  List.takeWhile_cons_of_neg (by simpa using hc)

lemma cString_cons_of_ne_null {c : BitVec 8} (hc : c ≠ 0#8) {data : List (BitVec 8)} :
    cString (c :: data) = c :: cString data :=
  List.takeWhile_cons_of_pos (by simpa using hc)

/-- `terminal_write` puts the characters of its string one after the other. -/
lemma terminalWrite_eq_forM (data : List (BitVec 8)) :
    terminalWrite data = (cString data).forM terminalPutchar := by
  induction data with
  | nil => rfl
  | cons c data ih =>
    rw [terminalWrite]
    by_cases hc : c = 0#8
    · rw [if_pos hc, cString_cons_of_null hc]
      rfl
    · rw [if_neg hc, cString_cons_of_ne_null hc, ih]
      rfl

/-- The same, with `terminal_putchar` as one change of state. -/
lemma exec_terminalWrite (data : List (BitVec 8)) (s : TerminalState) :
    (terminalWrite data).exec s = (cString data).foldl (fun s c => putcharState c s) s := by
  rw [terminalWrite_eq_forM]
  induction cString data generalizing s with
  | nil => rfl
  | cons c text ih =>
    rw [List.foldl_cons, ← exec_terminalPutchar]
    exact ih _

/-- The characters a call writes. -/
def TerminalCall.text : TerminalCall → List (BitVec 8)
  | .putchar c => [c]
  | .write data => cString data
  | .writestring data => cString data
  | .setcolor _ => []

/-- The text a list of calls writes. -/
def textOf (calls : List TerminalCall) : List (BitVec 8) := calls.flatMap TerminalCall.text

/-! ## The invariant -/

/-- The cell `(y, x)` comes before the cursor in reading order. -/
def BeforeCursor (s : TerminalState) (y x : ℕ) : Prop := y < s.row ∨ y = s.row ∧ x < s.column

/-- What holds after `n` characters. -/
structure TermInv (n : ℕ) (s : TerminalState) : Prop where
  /-- The cursor is in a column of the screen. -/
  column_lt : s.column < 80
  /-- A character moves the cursor down by at most one row. -/
  row_le : s.row ≤ n
  /-- Below the screen the cursor is at the start of a row. -/
  below : 25 ≤ s.row → s.column = 0
  /-- From the cursor on the screen is blank. -/
  blank : ∀ y < 25, ∀ x < 80, ¬ BeforeCursor s y x →
    entryChar (s.buffer (80 * y + x)) = space

/-- An entry shows the character it was made from. -/
lemma entryChar_vgaEntry (c : BitVec 8) (color : BitVec 32) : entryChar (vgaEntry c color) = c := by
  apply BitVec.eq_of_getLsbD_eq
  intro i hi
  rw [entryChar, vgaEntry, BitVec.getLsbD_setWidth, BitVec.getLsbD_or, BitVec.getLsbD_signExtend,
    BitVec.getLsbD_shiftLeft]
  simp [hi, show i < 16 by omega]

lemma termInv_init (s : TerminalState) : TermInv 0 (terminalInitialize.exec s) := by
  rw [exec_terminalInitialize]
  refine ⟨by norm_num, le_rfl, by simp, ?_⟩
  intro y hy x hx _
  change entryChar (if 80 * y + x < 2000 then _ else _) = space
  rw [if_pos (by omega), entryChar_vgaEntry]

section Putchar

variable {n : ℕ} {s : TerminalState} {c : BitVec 8}

/-- The number of scrolls of one `terminal_putchar`. -/
def scrollsOnce (c : BitVec 8) (s : TerminalState) : ℕ :=
  if c ≠ newline ∧ vgaHeight ≤ s.row then 1 else 0

lemma putcharState_newline (hrow : s.row + 1 < 2 ^ 32) :
    putcharState newline s = { s with row := s.row + 1, column := 0 } := by
  rw [putcharState, if_pos rfl, newlineState, Nat.mod_eq_of_lt hrow]

/-- A character on the screen goes to the cursor. -/
lemma putcharState_on_screen (hc : c ≠ newline) (hcol : s.column < 80) (hrow : s.row < 25) :
    putcharState c s =
      { s with
        buffer := Function.update s.buffer (80 * s.row + s.column) (vgaEntry c s.color)
        column := if s.column + 1 = 80 then 0 else s.column + 1
        row := if s.column + 1 = 80 then s.row + 1 else s.row } := by
  rw [putcharState, if_neg hc, scrollState, if_neg (by omega), placeState, cellIndex_eq hcol hrow,
    Nat.mod_eq_of_lt (show s.column + 1 < 2 ^ 32 by omega),
    Nat.mod_eq_of_lt (show s.row + 1 < 2 ^ 32 by omega)]

/-- A character below the screen moves the rows up by one and goes to the start of the last row. -/
lemma putcharState_below (hc : c ≠ newline) (hcol : s.column = 0) (hrow : 25 ≤ s.row) :
    putcharState c s =
      { s with
        buffer := Function.update (fun i => if i < 1920 then s.buffer (i + 80)
          else if i < 2000 then vgaEntry space s.color else s.buffer i) 1920 (vgaEntry c s.color)
        column := 1
        row := 24 } := by
  have hindex : cellIndex 0 24 = 1920 := cellIndex_eq (by norm_num) (by norm_num)
  have hnext : (0 + 1) % 2 ^ 32 ≠ 80 := by norm_num
  rw [putcharState, if_neg hc, scrollState, if_pos hrow, placeState]
  simp only [hcol, hindex, if_neg hnext]
  rfl

/-- One character keeps the invariant. -/
theorem TermInv.putchar (h : TermInv n s) (hn : n + 1 < 2 ^ 32) (c : BitVec 8) :
    TermInv (n + 1) (putcharState c s) := by
  have hcol := h.column_lt
  have hrow := h.row_le
  by_cases hc : c = newline
  · subst hc
    rw [putcharState_newline (by omega)]
    refine ⟨by norm_num, Nat.succ_le_succ hrow, fun _ => rfl, ?_⟩
    intro y hy x hx hafter
    refine h.blank y hy x hx fun hbefore => hafter ?_
    rcases hbefore with hlt | ⟨rfl, -⟩
    · exact Or.inl (Nat.lt_succ_of_lt hlt)
    · exact Or.inl (Nat.lt_succ_self _)
  · by_cases hscreen : s.row < 25
    · rw [putcharState_on_screen hc hcol hscreen]
      refine ⟨?_, ?_, ?_, ?_⟩
      · change (if s.column + 1 = 80 then 0 else s.column + 1) < 80
        split <;> omega
      · change (if s.column + 1 = 80 then s.row + 1 else s.row) ≤ n + 1
        split <;> omega
      · change 25 ≤ (if s.column + 1 = 80 then s.row + 1 else s.row) →
          (if s.column + 1 = 80 then 0 else s.column + 1) = 0
        split <;> omega
      · intro y hy x hx hafter
        have hcell : ¬ BeforeCursor s y x ∧ 80 * y + x ≠ 80 * s.row + s.column := by
          simp only [BeforeCursor] at hafter ⊢
          split at hafter <;> omega
        change entryChar (Function.update s.buffer _ _ _) = space
        rw [Function.update_of_ne hcell.2]
        exact h.blank y hy x hx hcell.1
    · rw [putcharState_below hc (h.below (by omega)) (by omega)]
      refine ⟨by norm_num, ?_, by norm_num, ?_⟩
      · change 24 ≤ n + 1
        omega
      · intro y hy x hx hafter
        have hcell : y = 24 ∧ 1 ≤ x := by
          simp only [BeforeCursor] at hafter
          omega
        obtain ⟨rfl, hx1⟩ := hcell
        dsimp only
        rw [Function.update_of_ne (by omega), if_neg (by omega), if_pos (by omega),
          entryChar_vgaEntry]

/-- One character moves the cells before the cursor up by the number of its scrolls. -/
theorem putchar_keeps (h : TermInv n s) (hn : n + 1 < 2 ^ 32) (c : BitVec 8) {y x : ℕ} (hy : y < 25)
    (hx : x < 80) (hbefore : BeforeCursor s y x) (hk : scrollsOnce c s ≤ y) :
    (putcharState c s).buffer (80 * (y - scrollsOnce c s) + x) = s.buffer (80 * y + x) ∧
      BeforeCursor (putcharState c s) (y - scrollsOnce c s) x := by
  have hcol := h.column_lt
  have hrow := h.row_le
  by_cases hc : c = newline
  · have hnone : scrollsOnce c s = 0 := if_neg fun hand => hand.1 hc
    rw [hnone]
    subst hc
    rw [putcharState_newline (by omega)]
    refine ⟨rfl, Or.inl ?_⟩
    change y < s.row + 1
    rcases hbefore with hlt | ⟨rfl, -⟩ <;> omega
  · by_cases hscreen : s.row < 25
    · have hnone : scrollsOnce c s = 0 := if_neg fun hand => absurd hand.2 (Nat.not_le.mpr hscreen)
      rw [hnone, putcharState_on_screen hc hcol hscreen]
      rw [BeforeCursor] at hbefore
      refine ⟨Function.update_of_ne (by omega) _ _, ?_⟩
      simp only [BeforeCursor]
      split <;> omega
    · have hone : scrollsOnce c s = 1 := if_pos ⟨hc, Nat.le_of_not_lt hscreen⟩
      rw [hone] at hk ⊢
      rw [putcharState_below hc (h.below (by omega)) (by omega)]
      refine ⟨?_, Or.inl ?_⟩
      · dsimp only
        rw [Function.update_of_ne (by omega), if_pos (by omega)]
        congr 1
        omega
      · change y - 1 < 24
        omega

end Putchar

/-! ## Runs -/

/-- The number of scrolls of `terminal_write`. -/
def scrollCount : List (BitVec 8) → TerminalState → ℕ
  | [], _ => 0
  | c :: data, s =>
    if c = 0#8 then 0
    else scrollsOnce c s + scrollCount data ((terminalPutchar c).exec s)

/-- A change of colour keeps the invariant. -/
lemma TermInv.setcolor {n : ℕ} {s : TerminalState} (h : TermInv n s) (color : BitVec 32) :
    TermInv n ((terminalSetcolor color).exec s) := ⟨h.1, h.2, h.3, h.4⟩

/-- A string keeps the invariant, and moves the cells before the cursor up by the number of its
scrolls. -/
lemma TermInv.write {n : ℕ} {s : TerminalState} (h : TermInv n s) (data : List (BitVec 8))
    (hn : n + (cString data).length < 2 ^ 32) :
    TermInv (n + (cString data).length) ((terminalWrite data).exec s) ∧
      ∀ y < 25, ∀ x < 80, BeforeCursor s y x → scrollCount data s ≤ y →
        ((terminalWrite data).exec s).buffer (80 * (y - scrollCount data s) + x) =
          s.buffer (80 * y + x) := by
  induction data generalizing n s with
  | nil => exact ⟨h, fun _ _ _ _ _ _ => rfl⟩
  | cons c data ih =>
    rw [terminalWrite, scrollCount]
    by_cases hc : c = 0#8
    · rw [if_pos hc, if_pos hc, cString_cons_of_null hc]
      exact ⟨h, fun _ _ _ _ _ _ => rfl⟩
    · rw [cString_cons_of_ne_null hc, List.length_cons] at hn ⊢
      rw [if_neg hc, if_neg hc, exec_bind, exec_terminalPutchar]
      obtain ⟨hinv, hkeep⟩ := ih (h.putchar (by omega) c) (by omega)
      refine ⟨by rw [Nat.add_comm _ 1, ← Nat.add_assoc]; exact hinv, ?_⟩
      intro y hy x hx hbefore hk
      obtain ⟨hmove, hbefore'⟩ := putchar_keeps h (by omega) c hy hx hbefore (by omega)
      rw [← Nat.sub_sub, hkeep _ (by omega) x hx hbefore' (by omega), hmove]

/-- One call keeps the invariant. -/
lemma TermInv.step {n : ℕ} {s : TerminalState} (h : TermInv n s) (call : TerminalCall)
    (hn : n + call.text.length < 2 ^ 32) :
    TermInv (n + call.text.length) (terminalStep call s) := by
  cases call with
  | putchar c =>
    rw [terminalStep, TerminalCall.run, exec_terminalPutchar]
    exact h.putchar hn c
  | write data => exact (h.write data hn).1
  | writestring data => exact (h.write data hn).1
  | setcolor color => exact h.setcolor color

/-- The invariant holds after every run whose characters the row counter can count. -/
lemma TermInv.run {n : ℕ} {s : TerminalState} (h : TermInv n s) (calls : List TerminalCall)
    (hn : n + (textOf calls).length < 2 ^ 32) :
    TermInv (n + (textOf calls).length) (runActions terminalStep calls s) := by
  induction calls generalizing n s with
  | nil => exact h
  | cons call calls ih =>
    have htext : (textOf (call :: calls)).length = call.text.length + (textOf calls).length := by
      rw [textOf, List.flatMap_cons, List.length_append, textOf]
    rw [htext, ← Nat.add_assoc] at hn ⊢
    exact ih (h.step call (by omega)) hn

/-- **Output is never overwritten or lost before it scrolls off the top.**  After
`terminal_initialize` and any calls, let a string be written that performs `k` scrolls.  Every entry
before the cursor is found `k` rows higher after it, if it was in row `k` or below.  Before the
string, all cells from the cursor on show a space, and a cursor below the screen is in column 0. -/
theorem terminalWrite_keeps_output (s₀ : TerminalState) (calls : List TerminalCall)
    (data : List (BitVec 8))
    (hbound : (textOf calls).length + (cString data).length < 2 ^ 32 - 25) :
    let s := runActions terminalStep calls (terminalInitialize.exec s₀)
    let t := (terminalWrite data).exec s
    let k := scrollCount data s
    (∀ y < vgaHeight, ∀ x < vgaWidth, (y < s.row ∨ y = s.row ∧ x < s.column) → k ≤ y →
      t.buffer (cellIndex x (y - k)) = s.buffer (cellIndex x y)) ∧
    (∀ y < vgaHeight, ∀ x < vgaWidth, ¬ (y < s.row ∨ y = s.row ∧ x < s.column) →
      entryChar (s.buffer (cellIndex x y)) = space) ∧
    (vgaHeight ≤ s.row → s.column = 0) := by
  intro s t k
  have hinv : TermInv (0 + (textOf calls).length) s := (termInv_init s₀).run calls (by omega)
  refine ⟨?_, ?_, hinv.below⟩
  · intro y hy x hx hbefore hk
    rw [cellIndex_eq hx (Nat.lt_of_le_of_lt (Nat.sub_le y k) hy), cellIndex_eq hx hy]
    exact (hinv.write data (by omega)).2 y hy x hx hbefore hk
  · intro y hy x hx hafter
    rw [cellIndex_eq hx hy]
    exact hinv.blank y hy x hx hafter

/-- A character in the second row and 24 newlines, which leave the cursor below the screen. -/
def secondRowText : List (BitVec 8) := newline :: 0x41#8 :: List.replicate 24 newline

/-- When `"B"` is written below the screen, the `'A'` of the second row is found in the first. -/
theorem terminalWrite_keeps_scrolled_character :
    ∃ s, s = runActions terminalStep [.write secondRowText]
        (terminalInitialize.exec blankTerminal) ∧
      scrollCount [0x42#8, 0#8] s = 1 ∧ entryChar (s.buffer (cellIndex 0 1)) = 0x41#8 ∧
      ((terminalWrite [0x42#8, 0#8]).exec s).buffer (cellIndex 0 0) = s.buffer (cellIndex 0 1) := by
  have hkeep := (terminalWrite_keeps_output blankTerminal [.write secondRowText] [0x42#8, 0#8]
    (by decide)).1 1 (by decide) 0 (by decide)
  obtain ⟨s, hrun⟩ : ∃ s, s = runActions terminalStep [.write secondRowText]
    (terminalInitialize.exec blankTerminal) := ⟨_, rfl⟩
  rw [← hrun] at hkeep
  have hs := hrun.trans (exec_terminalWrite _ _)
  rw [exec_terminalInitialize] at hs
  have hrow : s.row = 25 := by
    rw [hs]
    decide +kernel
  have hchar : entryChar (s.buffer (cellIndex 0 1)) = 0x41#8 := by
    rw [hs]
    decide +kernel
  have hcount : scrollCount [0x42#8, 0#8] s = 1 := by
    simp [scrollCount, scrollsOnce, hrow, vgaHeight, newline]
  rw [hcount, hrow] at hkeep
  exact ⟨s, hrun, hcount, hchar, hkeep (Or.inl (by norm_num)) le_rfl⟩

end VVBright
