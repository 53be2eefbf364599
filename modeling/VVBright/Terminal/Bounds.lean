import VVBright.Terminal.Scroll

/-!
# The terminal stays inside the text buffer

`terminal_putentryat` checks nothing, and newlines move the row counter as far as they like, up to
`2 ^ 32 - 1` and from there to 0.  No bound on the row is kept between calls, and none is needed:
before a character is stored the scrolling part brings the row back to the screen, whatever it was
(`row_scrollState_lt`).  What has to be carried from call to call is the column alone.
-/

namespace VVBright

open Traced

/-- The index is one of the `VGA_WIDTH * VGA_HEIGHT` entries of the text buffer. -/
def InTextBuffer (_ : TerminalState) (index : ℕ) : Prop := index < vgaWidth * vgaHeight

/-- The cursor is in a column of the screen. -/
def ColumnOnScreen (s : TerminalState) : Prop := s.column < vgaWidth

/-! ## One character -/

section

variable (s : TerminalState)

/-- The copy reads the rows 1 to 24 and writes the rows 0 to 23. -/
lemma scrollUp_accessesIn : AccessesIn InTextBuffer scrollUp s := by
  refine forLoop_accessesIn_of_forall (fun y hy t => ?_) _
  refine forLoop_accessesIn_of_forall (fun x hx u => ?_) _
  rw [vgaHeight] at hy
  rw [accessesIn_bind, accessesIn_readCell, accessesIn_writeCell]
  exact ⟨cellIndex_lt hx (by omega), cellIndex_lt hx (by omega)⟩

lemma clearLastLine_accessesIn : AccessesIn InTextBuffer clearLastLine s := by
  refine forLoop_accessesIn_of_forall (fun x hx t => ?_) _
  rw [accessesIn_bind, accessesIn_writeCell]
  exact ⟨accessesIn_gets _ _ _, cellIndex_lt hx (Nat.lt_succ_self 24)⟩

lemma terminalInitialize_accessesIn : AccessesIn InTextBuffer terminalInitialize s := by
  rw [terminalInitialize, accessesIn_bind]
  refine ⟨accessesIn_modify _ _ _, ?_⟩
  refine forLoop_accessesIn_of_forall (fun y hy t => ?_) _
  refine forLoop_accessesIn_of_forall (fun x hx u => ?_) _
  rw [accessesIn_bind, accessesIn_writeCell]
  exact ⟨accessesIn_gets _ _ _, cellIndex_lt hx hy⟩

lemma scrollIfBelow_accessesIn : AccessesIn InTextBuffer scrollIfBelow s := by
  rw [scrollIfBelow, accessesIn_bind, eval_gets, exec_gets]
  refine ⟨accessesIn_gets _ _ _, ?_⟩
  split
  · rw [accessesIn_bind, accessesIn_bind]
    exact ⟨scrollUp_accessesIn s, clearLastLine_accessesIn _, accessesIn_modify _ _ _⟩
  · exact accessesIn_pure _ _ _

/-- Moving the cursor does not touch the buffer. -/
lemma advanceCursor_accessesIn (P : TerminalState → ℕ → Prop) : AccessesIn P advanceCursor s := by
  rw [advanceCursor, accessesIn_bind, accessesIn_bind]
  refine ⟨accessesIn_modify _ _ _, accessesIn_gets _ _ _, ?_⟩
  split
  · exact accessesIn_modify _ _ _
  · exact accessesIn_pure _ _ _

end

section

variable {s : TerminalState}

/-- The accesses of `terminal_putchar`, in every row the cursor may be in. -/
theorem terminalPutchar_accessesIn (hcol : ColumnOnScreen s) (c : BitVec 8) :
    AccessesIn InTextBuffer (terminalPutchar c) s := by
  rw [terminalPutchar]
  split
  · exact accessesIn_modify _ _ _
  · have hcol' : (scrollState s).column < 80 := by
      rw [column_scrollState]
      exact hcol
    rw [accessesIn_bind, exec_scrollIfBelow]
    refine ⟨scrollIfBelow_accessesIn s, ?_⟩
    -- The colour and the cursor are read after the scroll, so the row is one of the screen.
    simp only [accessesIn_bind, accessesIn_gets, eval_gets, exec_gets, true_and]
    refine ⟨?_, advanceCursor_accessesIn _ _⟩
    rw [terminalPutentryat, accessesIn_writeCell]
    exact cellIndex_lt hcol' (row_scrollState_lt s)

/-- The last cell of the screen is stored to, and nothing else is touched. -/
example : ((terminalPutchar 0x41#8).accesses ⟨24, 79, 7#32, fun _ => 0#16⟩).map Access.addr =
    [1999] := rfl

lemma ColumnOnScreen.putchar (hcol : ColumnOnScreen s) (c : BitVec 8) :
    ColumnOnScreen ((terminalPutchar c).exec s) := by
  rw [exec_terminalPutchar]
  exact (column_putcharState_lt hcol).1

end

/-! ## Calls -/

section

variable {s : TerminalState}

lemma ColumnOnScreen.write (hcol : ColumnOnScreen s) (data : List (BitVec 8)) :
    ColumnOnScreen ((terminalWrite data).exec s) := by
  rw [terminalWrite_eq_forM]
  exact forM_invariant ColumnOnScreen hcol fun c _ t ht => ht.putchar c

lemma terminalWrite_accessesIn (hcol : ColumnOnScreen s) (data : List (BitVec 8)) :
    AccessesIn InTextBuffer (terminalWrite data) s := by
  rw [terminalWrite_eq_forM]
  exact forM_accessesIn ColumnOnScreen hcol (fun c _ t ht => ht.putchar c)
    fun c _ t ht => terminalPutchar_accessesIn ht c

/-- Every call leaves the cursor in a column of the screen. -/
lemma ColumnOnScreen.call (hcol : ColumnOnScreen s) (call : TerminalCall) :
    ColumnOnScreen (call.run.exec s) := by
  cases call with
  | putchar c => exact hcol.putchar c
  | write data => exact hcol.write data
  | writestring data => exact hcol.write data
  | setcolor color => exact hcol

/-- Every call that finds the cursor in a column of the screen stays inside the buffer. -/
lemma TerminalCall.run_accessesIn (hcol : ColumnOnScreen s) (call : TerminalCall) :
    AccessesIn InTextBuffer call.run s := by
  cases call with
  | putchar c => exact terminalPutchar_accessesIn hcol c
  | write data => exact terminalWrite_accessesIn hcol data
  | writestring data => exact terminalWrite_accessesIn hcol data
  | setcolor color => exact accessesIn_modify _ _ _

end

lemma columnOnScreen_init (s : TerminalState) : ColumnOnScreen (terminalInitialize.exec s) := by
  rw [exec_terminalInitialize]
  exact Nat.succ_pos 79

/-- **Every access of the terminal is inside the text buffer.**  For every list of calls after
`terminal_initialize`, however long and whatever they print, every entry of `terminal_buffer` that
is read or written is one of the 2000 of the screen, and the cursor is in a column of the screen
after every number of calls. -/
theorem terminalCalls_inside_textBuffer (s₀ : TerminalState) (calls : List TerminalCall) :
    AccessesIn InTextBuffer (do terminalInitialize; calls.forM TerminalCall.run) s₀ ∧
      ∀ n, (((calls.take n).forM TerminalCall.run).exec (terminalInitialize.exec s₀)).column <
        vgaWidth := by
  have hinit := columnOnScreen_init s₀
  constructor
  · rw [accessesIn_bind]
    refine ⟨terminalInitialize_accessesIn s₀, ?_⟩
    exact forM_accessesIn ColumnOnScreen hinit (fun call _ t ht => ht.call call)
      fun call _ t ht => TerminalCall.run_accessesIn ht call
  · intro n
    exact forM_invariant ColumnOnScreen hinit fun call _ t ht => ht.call call

end VVBright
