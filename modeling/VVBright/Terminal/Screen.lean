import VVBright.Foundation.ByteMemory
import VVBright.Terminal.Bounds

/-!
# The screen in memory

`terminal_buffer` points to `VGA_MEMORY`, so an entry of the buffer is two bytes of physical memory
and the buffer is the whole of memory seen in cells of 16 bits (`cellsOf`, `memoryOf`).  What makes
the terminal a component of its own is that it neither reads nor writes beyond the 2000 cells of the
screen: its calls leave every other cell alone (`TerminalCall.run_local`), and what they do to the
cursor, the colour and the screen depends on these only (`SameScreen.call`).

The static variables of `terminal.c` are words of memory too.  `TerminalLink` says where they are,
and `TerminalLink.writestring` is `terminal_writestring` on a memory that holds them as well as the
screen.
-/

namespace VVBright

open Traced

/-! ## The cells of memory -/

/-- `VGA_MEMORY`. -/
def vgaMemory : BitVec 32 := 0xB8000#32

/-- Memory from `VGA_MEMORY` on as an array of `uint16_t`. -/
def cellsOf (m : Memory) (i : ℕ) : BitVec 16 :=
  m (vgaMemory + BitVec.ofNat 32 (2 * i + 1)) ++ m (vgaMemory + BitVec.ofNat 32 (2 * i))

/-- The memory with the given cells. -/
def memoryOf (cells : ℕ → BitVec 16) : Memory := fun x =>
  (cells ((x - vgaMemory).toNat / 2)).extractLsb' (8 * ((x - vgaMemory).toNat % 2)) 8

/-- The byte belongs to a cell of the screen. -/
def InTextMemory (x : BitVec 32) : Prop := (x - vgaMemory).toNat < 4000

/-- A byte of the memory is in the cell it belongs to. -/
lemma extractLsb'_cellsOf (m : Memory) (x : BitVec 32) :
    (cellsOf m ((x - vgaMemory).toNat / 2)).extractLsb' (8 * ((x - vgaMemory).toNat % 2)) 8 =
      m x := by
  have hx : vgaMemory + BitVec.ofNat 32 (x - vgaMemory).toNat = x := by
    rw [BitVec.ofNat_toNat, BitVec.setWidth_eq]
    bv_omega
  rw [cellsOf]
  rcases Nat.mod_two_eq_zero_or_one (x - vgaMemory).toNat with hpar | hpar
  · have hlow : 2 * ((x - vgaMemory).toNat / 2) = (x - vgaMemory).toNat := by omega
    rw [hpar, hlow, hx]
    exact BitVec.extractLsb'_append_eq_right
  · have hhigh : 2 * ((x - vgaMemory).toNat / 2) + 1 = (x - vgaMemory).toNat := by omega
    rw [hpar, hhigh, hx]
    exact BitVec.extractLsb'_append_eq_left

lemma cellsOf_memoryOf (cells : ℕ → BitVec 16) {i : ℕ} (hi : i < 2 ^ 31) :
    cellsOf (memoryOf cells) i = cells i := by
  have hlow : (vgaMemory + BitVec.ofNat 32 (2 * i) - vgaMemory).toNat = 2 * i := by bv_omega
  have hhigh : (vgaMemory + BitVec.ofNat 32 (2 * i + 1) - vgaMemory).toNat = 2 * i + 1 := by
    bv_omega
  rw [cellsOf, memoryOf, memoryOf, hlow, hhigh, show (2 * i + 1) / 2 = i by omega,
    show 2 * i / 2 = i by omega, show (2 * i + 1) % 2 = 1 by omega, show 2 * i % 2 = 0 by omega]
  exact append_bytes16 (cells i)

/-- Cells of the screen are the same if the bytes of the text buffer are. -/
lemma cellsOf_congr {m m' : Memory} (h : ∀ x, InTextMemory x → m x = m' x) {i : ℕ}
    (hi : i < vgaWidth * vgaHeight) : cellsOf m i = cellsOf m' i := by
  rw [vgaWidth, vgaHeight] at hi
  have hbyte : ∀ k < 4000, InTextMemory (vgaMemory + BitVec.ofNat 32 k) := by
    intro k hk
    rw [InTextMemory]
    bv_omega
  rw [cellsOf, cellsOf, h _ (hbyte _ (by omega)), h _ (hbyte _ (by omega))]

/-- Cells that are the same beyond the screen make no byte different there. -/
lemma memoryOf_of_not_text {m : Memory} {cells : ℕ → BitVec 16} {x : BitVec 32}
    (h : ∀ i, vgaWidth * vgaHeight ≤ i → cells i = cellsOf m i) (hx : ¬ InTextMemory x) :
    memoryOf cells x = m x := by
  rw [InTextMemory] at hx
  rw [memoryOf, h _ (by rw [vgaWidth, vgaHeight]; omega)]
  exact extractLsb'_cellsOf m x

/-! ## The calls depend on the screen only -/

/-- Two states that differ beyond the screen at most. -/
structure SameScreen (s t : TerminalState) : Prop where
  row : s.row = t.row
  column : s.column = t.column
  color : s.color = t.color
  cells : ∀ i < vgaWidth * vgaHeight, s.buffer i = t.buffer i

section

variable {s t : TerminalState}

lemma SameScreen.refl (s : TerminalState) : SameScreen s s := ⟨rfl, rfl, rfl, fun _ _ => rfl⟩

lemma SameScreen.trans {u : TerminalState} (h : SameScreen s t) (h' : SameScreen t u) :
    SameScreen s u where
  row := h.row.trans h'.row
  column := h.column.trans h'.column
  color := h.color.trans h'.color
  cells i hi := (h.cells i hi).trans (h'.cells i hi)

/-- Scrolling reads and writes the screen only. -/
lemma SameScreen.scroll (h : SameScreen s t) : SameScreen (scrollState s) (scrollState t) := by
  rw [scrollState, scrollState, ← h.row]
  split
  · refine ⟨rfl, h.column, h.color, fun i hi => ?_⟩
    dsimp only
    by_cases hmoved : i < 1920
    · rw [if_pos hmoved, if_pos hmoved]
      exact h.cells (i + 80) (by rw [vgaWidth, vgaHeight]; omega)
    · rw [vgaWidth, vgaHeight] at hi
      rw [if_neg hmoved, if_neg hmoved, if_pos hi, if_pos hi, h.color]
  · exact h

lemma SameScreen.putchar (h : SameScreen s t) (c : BitVec 8) :
    SameScreen (putcharState c s) (putcharState c t) := by
  rw [putcharState, putcharState]
  split
  · exact ⟨by rw [newlineState, newlineState, h.row], rfl, h.color, h.cells⟩
  · obtain ⟨hrow, hcolumn, hcolor, hcells⟩ := h.scroll
    refine ⟨?_, ?_, hcolor, fun i hi => ?_⟩
    · simp only [placeState, hrow, hcolumn]
    · simp only [placeState, hcolumn]
    · simp only [placeState, hrow, hcolumn, hcolor, Function.update_apply, hcells i hi]

/-- What a call does to the cursor, the colour and the screen depends on these only. -/
theorem SameScreen.call (h : SameScreen s t) (call : TerminalCall) :
    SameScreen (call.run.exec s) (call.run.exec t) := by
  have hputchar : ∀ c s t, SameScreen s t →
      SameScreen ((terminalPutchar c).exec s) ((terminalPutchar c).exec t) := by
    intro c s t hst
    rw [exec_terminalPutchar, exec_terminalPutchar]
    exact hst.putchar c
  have hwrite : ∀ data, SameScreen ((terminalWrite data).exec s) ((terminalWrite data).exec t) := by
    intro data
    rw [terminalWrite_eq_forM]
    exact forM_relation SameScreen h fun c _ => hputchar c
  cases call with
  | putchar c => exact hputchar c s t h
  | write data => exact hwrite data
  | writestring data => exact hwrite data
  | setcolor color => exact ⟨h.row, h.column, rfl, h.cells⟩

end

/-! ## Nothing beyond the screen is touched -/

/-- The states have the same cells beyond the screen. -/
def SameBeyond (s t : TerminalState) : Prop :=
  ∀ i, vgaWidth * vgaHeight ≤ i → t.buffer i = s.buffer i

/-- An access to the screen, at a moment when no cell beyond the screen differs from `s`. -/
def ScreenAccess (s t : TerminalState) (index : ℕ) : Prop :=
  InTextBuffer t index ∧ SameBeyond s t

/-- While no cell beyond the screen differs from `s`, the computation accesses the screen only, and
leaves the cells beyond it as they are. -/
def LocalToScreen (s : TerminalState) (m : TermM Unit) : Prop :=
  ∀ t, SameBeyond s t → AccessesIn (ScreenAccess s) m t ∧ SameBeyond s (m.exec t)

section

variable {s : TerminalState}

lemma localToScreen_writeCell {i : ℕ} (hi : i < vgaWidth * vgaHeight) (v : BitVec 16) :
    LocalToScreen s (writeCell i v) := by
  intro t ht
  refine ⟨(accessesIn_writeCell _ _ _ _).mpr ⟨hi, ht⟩, fun j hj => ?_⟩
  rw [exec_writeCell, ← ht j hj]
  exact Function.update_of_ne (by omega) _ _

lemma localToScreen_forLoop {n : ℕ} {body : ℕ → TermM Unit}
    (h : ∀ i < n, LocalToScreen s (body i)) : LocalToScreen s (forLoop n body) := by
  intro t ht
  have hkeeps : ∀ i < n, ∀ u, SameBeyond s u → SameBeyond s ((body i).exec u) :=
    fun i hi u hu => (h i hi u hu).2
  exact ⟨forLoop_accessesIn (fun _ => SameBeyond s) ht hkeeps fun i hi u hu => (h i hi u hu).1,
    forLoop_invariant (fun _ => SameBeyond s) ht hkeeps⟩

lemma localToScreen_scrollUp : LocalToScreen s scrollUp := by
  refine localToScreen_forLoop fun y hy => localToScreen_forLoop fun x hx t ht => ?_
  rw [vgaHeight] at hy
  obtain ⟨hwrite, hkeeps⟩ := localToScreen_writeCell (cellIndex_lt hx (show y < 25 by omega))
    ((readCell (cellIndex x (y + 1))).eval t) t ht
  rw [accessesIn_bind, accessesIn_readCell]
  exact ⟨⟨⟨cellIndex_lt hx (by omega), ht⟩, hwrite⟩, hkeeps⟩

lemma localToScreen_clearLastLine : LocalToScreen s clearLastLine := by
  refine localToScreen_forLoop fun x hx t ht => ?_
  obtain ⟨hwrite, hkeeps⟩ := localToScreen_writeCell (cellIndex_lt hx (Nat.lt_succ_self 24))
    (vgaEntry space t.color) t ht
  rw [accessesIn_bind]
  exact ⟨⟨accessesIn_gets _ _ _, hwrite⟩, hkeeps⟩

lemma localToScreen_scrollIfBelow : LocalToScreen s scrollIfBelow := by
  intro t ht
  rw [scrollIfBelow, accessesIn_bind, exec_bind, eval_gets, exec_gets]
  split
  · obtain ⟨hup, hkeeps⟩ := localToScreen_scrollUp t ht
    obtain ⟨hclear, hkeeps'⟩ := localToScreen_clearLastLine _ hkeeps
    rw [accessesIn_bind, accessesIn_bind, exec_bind, exec_bind, exec_modify]
    generalize clearLastLine.exec (scrollUp.exec t) = u at hkeeps' ⊢
    exact ⟨⟨accessesIn_gets _ _ _, hup, hclear, accessesIn_modify _ _ _⟩, hkeeps'⟩
  · exact ⟨⟨accessesIn_gets _ _ _, accessesIn_pure _ _ _⟩, ht⟩

/-- A character, wherever the cursor is in its column. -/
lemma terminalPutchar_local {t : TerminalState} (ht : SameBeyond s t) (hcol : ColumnOnScreen t)
    (c : BitVec 8) : AccessesIn (ScreenAccess s) (terminalPutchar c) t ∧
      SameBeyond s ((terminalPutchar c).exec t) := by
  rw [terminalPutchar]
  split
  · exact ⟨accessesIn_modify _ _ _, ht⟩
  · obtain ⟨hscroll, hkeeps⟩ := localToScreen_scrollIfBelow t ht
    rw [exec_scrollIfBelow] at hkeeps
    have hcell : cellIndex (scrollState t).column (scrollState t).row < vgaWidth * vgaHeight :=
      cellIndex_lt (by rw [column_scrollState]; exact hcol) (row_scrollState_lt t)
    obtain ⟨hput, hkeeps'⟩ := localToScreen_writeCell hcell (vgaEntry c (scrollState t).color)
      (scrollState t) hkeeps
    simp only [accessesIn_bind, accessesIn_gets, exec_bind, eval_gets, exec_gets, true_and,
      exec_scrollIfBelow, terminalPutentryat, exec_advanceCursor]
    exact ⟨⟨hscroll, hput, advanceCursor_accessesIn _ _⟩, hkeeps'⟩

/-- Every call accesses the screen only, and leaves the cells beyond it alone. -/
theorem TerminalCall.run_local (hcol : ColumnOnScreen s) (call : TerminalCall) :
    AccessesIn (ScreenAccess s) call.run s ∧ SameBeyond s (call.run.exec s) := by
  have hself : SameBeyond s s := fun _ _ => rfl
  have hwrite : ∀ data, AccessesIn (ScreenAccess s) (terminalWrite data) s ∧
      SameBeyond s ((terminalWrite data).exec s) := by
    intro data
    have hkeeps : ∀ c ∈ cString data, ∀ t, SameBeyond s t ∧ ColumnOnScreen t →
        SameBeyond s ((terminalPutchar c).exec t) ∧ ColumnOnScreen ((terminalPutchar c).exec t) :=
      fun c _ t ht => ⟨(terminalPutchar_local ht.1 ht.2 c).2, ht.2.putchar c⟩
    rw [terminalWrite_eq_forM]
    exact ⟨forM_accessesIn (fun t => SameBeyond s t ∧ ColumnOnScreen t) ⟨hself, hcol⟩ hkeeps
      fun c _ t ht => (terminalPutchar_local ht.1 ht.2 c).1,
      (forM_invariant (fun t => SameBeyond s t ∧ ColumnOnScreen t) ⟨hself, hcol⟩ hkeeps).1⟩
  cases call with
  | putchar c => exact terminalPutchar_local hself hcol c
  | write data => exact hwrite data
  | writestring data => exact hwrite data
  | setcolor color => exact ⟨accessesIn_modify _ _ _, hself⟩

end

/-! ## The variables in memory -/

/-- The bytes of the screen. -/
def textMemory : Region := ⟨vgaMemory, 4000⟩

/-- Where the linker puts the variables of the terminal: apart from each other and from the
screen. -/
structure TerminalLink where
  terminalRow : BitVec 32
  terminalColumn : BitVec 32
  terminalColor : BitVec 32
  variables_apart : [Region.word terminalRow, Region.word terminalColumn,
    Region.word terminalColor, textMemory].Pairwise Region.Apart

namespace TerminalLink

variable (L : TerminalLink)

/-- The terminal whose variables are in the memory.  `terminal_buffer` points to the screen. -/
def terminal (m : Memory) : TerminalState :=
  ⟨(load32 m L.terminalRow).toNat, (load32 m L.terminalColumn).toNat, load32 m L.terminalColor,
    cellsOf m⟩

/-- `terminal_writestring`, which changes the cursor and the cells. -/
def writestring (data : List (BitVec 8)) (m : Memory) : Memory :=
  let t := (terminalWritestring data).exec (L.terminal m)
  store32 (store32 (memoryOf t.buffer) L.terminalRow (BitVec.ofNat 32 t.row)) L.terminalColumn
    (BitVec.ofNat 32 t.column)

/-- What the terminal consists of. -/
def regions : List Region :=
  [.word L.terminalRow, .word L.terminalColumn, .word L.terminalColor, textMemory]

lemma apart : ((Region.word L.terminalRow).Apart (.word L.terminalColumn) ∧
    (Region.word L.terminalRow).Apart (.word L.terminalColor) ∧
    (Region.word L.terminalRow).Apart textMemory) ∧
    ((Region.word L.terminalColumn).Apart (.word L.terminalColor) ∧
    (Region.word L.terminalColumn).Apart textMemory) ∧
    (Region.word L.terminalColor).Apart textMemory := by
  simpa [List.pairwise_cons] using L.variables_apart

variable {L} {m : Memory} {x : BitVec 32} (data : List (BitVec 8))

/-- Only the two words of the cursor and the screen change. -/
lemma writestring_outside (hcol : ColumnOnScreen (L.terminal m))
    (hrow : ¬ (Region.word L.terminalRow).Has x) (hcolumn : ¬ (Region.word L.terminalColumn).Has x)
    (htext : ¬ textMemory.Has x) : L.writestring data m x = m x := by
  rw [writestring, store32_of_not_has _ _ hcolumn, store32_of_not_has _ _ hrow]
  exact memoryOf_of_not_text ((TerminalCall.writestring data).run_local hcol).2 htext

/-- Memories with the same variables and the same screen hold the same terminal. -/
lemma terminal_congr {m' : Memory} (h : ∀ r ∈ L.regions, ∀ x, r.Has x → m' x = m x) :
    SameScreen (L.terminal m') (L.terminal m) := by
  have hword : ∀ a, Region.word a ∈ L.regions → load32 m' a = load32 m a :=
    fun a ha => load32_congr (h _ ha)
  have hrow := hword L.terminalRow (by simp [regions])
  have hcolumn := hword L.terminalColumn (by simp [regions])
  have hcolor := hword L.terminalColor (by simp [regions])
  exact ⟨congrArg BitVec.toNat hrow, congrArg BitVec.toNat hcolumn, hcolor,
    fun i hi => cellsOf_congr (h textMemory (by simp [regions])) hi⟩

/-- A string leaves the colour as it is, and the row counter in its 32 bits. -/
lemma exec_writestring_rest {s : TerminalState} (hrow : s.row < 2 ^ 32) :
    ((terminalWritestring data).exec s).color = s.color ∧
      ((terminalWritestring data).exec s).row < 2 ^ 32 := by
  rw [terminalWritestring, terminalWrite_eq_forM]
  refine forM_invariant (fun t : TerminalState => t.color = s.color ∧ t.row < 2 ^ 32)
    ⟨rfl, hrow⟩ ?_
  rintro c - t ⟨hcolor, ht⟩
  rw [exec_terminalPutchar, putcharState]
  split
  · exact ⟨hcolor, Nat.mod_lt _ (by norm_num)⟩
  · have hlt := row_scrollState_lt t
    refine ⟨(color_scrollState t).trans hcolor, ?_⟩
    dsimp only [placeState]
    split
    · exact Nat.mod_lt _ (by norm_num)
    · omega

/-- In memory a string does to the terminal what it does to a terminal by itself. -/
lemma terminal_writestring (hcol : ColumnOnScreen (L.terminal m)) :
    SameScreen (L.terminal (L.writestring data m))
      ((TerminalCall.writestring data).run.exec (L.terminal m)) := by
  obtain ⟨hcolor, hrow⟩ := exec_writestring_rest data (s := L.terminal m)
    (load32 m L.terminalRow).isLt
  have hcolumn : ((terminalWritestring data).exec (L.terminal m)).column < 80 :=
    hcol.call (.writestring data)
  have hlocal := ((TerminalCall.writestring data).run_local hcol).2
  obtain ⟨⟨hrowcol, hrowcolor, hrowtext⟩, ⟨hcolcolor, hcoltext⟩, hcolortext⟩ := L.apart
  refine ⟨?_, ?_, ?_, fun i hi => ?_⟩
  · change (load32 (L.writestring data m) L.terminalRow).toNat = _
    rw [writestring, load32_store32_of_regions _ _ hrowcol.symm, load32_store32_same,
      BitVec.toNat_ofNat, Nat.mod_eq_of_lt hrow]
    rfl
  · change (load32 (L.writestring data m) L.terminalColumn).toNat = _
    rw [writestring, load32_store32_same, BitVec.toNat_ofNat, Nat.mod_eq_of_lt (by omega)]
    rfl
  · refine Eq.trans ?_ hcolor.symm
    exact load32_congr fun x hx => writestring_outside data hcol (hrowcolor.not_has hx)
      (hcolcolor.not_has hx) (hcolortext.symm.not_has hx)
  · refine Eq.trans ?_ (cellsOf_memoryOf _ (by rw [vgaWidth, vgaHeight] at hi; omega))
    refine cellsOf_congr (fun x hx => ?_) hi
    rw [writestring, store32_of_not_has _ _ (hcoltext.not_has hx),
      store32_of_not_has _ _ (hrowtext.not_has hx)]
    rfl

end TerminalLink

end VVBright
