import VVBright.Terminal.Page

/-!
# What the cells hold

Every cell of the screen should show the character that was printed there in the colour that was
current then, however often the screen has scrolled since.  `Stamps` records the character and the
colour for each cell; it follows the buffer: printing stamps a cell, scrolling moves the stamps, and
a cleared cell has none.

`vga_entry` extends the sign of the character into the byte of the colour.  The low byte of an entry
is always the character, but the high byte is the colour only for characters below `0x80`, or if the
colour is `0xFF` (`entryColor_vgaEntry_iff`).  Copying entries adds no further condition
(`cells_hold_stamps_iff`).
-/

namespace VVBright

open Traced

/-- The colour of a buffer entry. -/
def entryColor (entry : BitVec 16) : BitVec 8 := entry.extractLsb' 8 8

/-- A printed character and the colour that was current. -/
structure Stamp where
  char : BitVec 8
  color : BitVec 32

/-- The stamp of each cell that holds a printed character. -/
abbrev Stamps := ℕ → Option Stamp

/-- The row `terminal_putchar` prints in. -/
def printRow (s : TerminalState) : ℕ := if vgaHeight ≤ s.row then vgaHeight - 1 else s.row

/-- The stamps move with the rows, and the last row is cleared. -/
def scrollStamps (p : Stamps) : Stamps :=
  fun i => if i < 1920 then p (i + 80) else if i < 2000 then none else p i

/-- The stamps after `terminal_putchar`. -/
def putStamp (c : BitVec 8) (s : TerminalState) (p : Stamps) : Stamps :=
  if c = newline then p
  else
    Function.update (if vgaHeight ≤ s.row then scrollStamps p else p)
      (cellIndex s.column (printRow s)) (some ⟨c, s.color⟩)

/-- One action of the terminal, with the stamps beside it. -/
def stampStep : TerminalAct → Stamps × TerminalState → Stamps × TerminalState
  | .put c, q => (putStamp c q.2 q.1, actStep (.put c) q.2)
  | .setcolor color, q => (q.1, actStep (.setcolor color) q.2)

/-- The terminal after `terminal_initialize`, when nothing has been printed. -/
def unstamped (s : TerminalState) : Stamps × TerminalState :=
  (fun _ => none, terminalInitialize.exec s)

/-- Every cell that holds a printed character has it in its low byte and its colour in its high
byte. -/
def CellsHoldStamps (q : Stamps × TerminalState) : Prop :=
  ∀ i < vgaWidth * vgaHeight, ∀ stamp, q.1 i = some stamp →
    entryChar (q.2.buffer i) = stamp.char ∧
      (entryColor (q.2.buffer i)).toNat = stamp.color.toNat

/-- The character is an ASCII character, or the colour is `0xFF`. -/
def ColorSurvives : TerminalAct → TerminalState → Prop
  | .put c, s => c.toNat < 0x80 ∨ s.color = 0xFF#32
  | .setcolor _, _ => True

/-- The action sets a colour of one byte, if it sets any. -/
def ByteColor : TerminalAct → Prop
  | .put _ => True
  | .setcolor color => color.toNat ≤ 255

/-! ## Entries -/

/-- The high byte of an entry: the colour, or all ones for a negative character. -/
lemma entryColor_vgaEntry (c : BitVec 8) (color : BitVec 32) :
    entryColor (vgaEntry c color) = if c.msb then 0xFF#8 else color.setWidth 8 := by
  apply BitVec.eq_of_getLsbD_eq
  intro i hi
  rw [entryColor, vgaEntry, BitVec.getLsbD_extractLsb', BitVec.getLsbD_or,
    BitVec.getLsbD_signExtend, BitVec.getLsbD_shiftLeft, BitVec.getLsbD_setWidth]
  have hones : (0xFF#8).getLsbD i = true := by interval_cases i <;> rfl
  cases c.msb
  · simp [hi, show i < 16 by omega, show 8 + i < 16 by omega, show ¬ 8 + i < 8 by omega]
  · rw [if_pos rfl, hones]
    simp [hi, show 8 + i < 16 by omega]

/-- The high byte of an entry is the colour it was made with exactly for the characters below
`0x80`, or if the colour is `0xFF`. -/
theorem entryColor_vgaEntry_iff (c : BitVec 8) {color : BitVec 32} (hcolor : color.toNat ≤ 255) :
    (entryColor (vgaEntry c color)).toNat = color.toNat ↔ c.toNat < 0x80 ∨ color = 0xFF#32 := by
  have hbyte : (color.setWidth 8).toNat = color.toNat := by
    rw [BitVec.toNat_setWidth]
    exact Nat.mod_eq_of_lt (by omega)
  have hones : color = 0xFF#32 ↔ color.toNat = 255 := BitVec.toNat_inj.symm
  have hmsb := BitVec.msb_eq_decide c
  rw [entryColor_vgaEntry, hones]
  by_cases hc : c.toNat < 0x80
  · have hpos : c.msb = false := by
      rw [hmsb, decide_eq_false_iff_not]
      omega
    rw [hpos]
    exact iff_of_true hbyte (Or.inl hc)
  · have hneg : c.msb = true := by
      rw [hmsb, decide_eq_true_iff]
      omega
    rw [hneg, if_pos rfl, or_iff_right hc]
    exact eq_comm

/-! ## The invariant -/

/-- What is known of a run in which all colours survive. -/
structure StampInv (q : Stamps × TerminalState) : Prop where
  column_lt : q.2.column < 80
  color_le : q.2.color.toNat ≤ 255
  holds : CellsHoldStamps q

lemma stampInv_init (s : TerminalState) : StampInv (unstamped s) := by
  rw [unstamped, exec_terminalInitialize]
  refine ⟨by norm_num, (by decide : (7#32).toNat ≤ 255), fun i _ stamp h => ?_⟩
  exact absurd h (Option.some_ne_none stamp).symm

section

variable {p : Stamps} {s : TerminalState} {c : BitVec 8}

/-- The row a character is printed in is where the scrolling part has left the cursor. -/
lemma row_scrollState (s : TerminalState) : (scrollState s).row = printRow s := by
  rw [scrollState, printRow]
  by_cases hrow : 25 ≤ s.row
  · rw [if_pos hrow, if_pos (show vgaHeight ≤ s.row from hrow)]
    rfl
  · rw [if_neg hrow, if_neg (show ¬ vgaHeight ≤ s.row from hrow)]

/-- The cell a character is printed in is on the screen. -/
lemma cellIndex_printRow_lt (hcol : s.column < 80) :
    cellIndex s.column (printRow s) < vgaWidth * vgaHeight := by
  rw [← row_scrollState]
  exact cellIndex_lt hcol (row_scrollState_lt s)

/-- The buffer after a character has been printed. -/
lemma buffer_putcharState (hc : c ≠ newline) :
    (putcharState c s).buffer =
      Function.update (scrollState s).buffer (cellIndex s.column (printRow s))
        (vgaEntry c s.color) := by
  rw [putcharState, if_neg hc, placeState, ← row_scrollState]
  dsimp only
  rw [column_scrollState, color_scrollState]

/-- Scrolling keeps the stamps true: an entry is copied with its stamp. -/
lemma CellsHoldStamps.scroll (h : CellsHoldStamps (p, s)) :
    CellsHoldStamps (if vgaHeight ≤ s.row then scrollStamps p else p, scrollState s) := by
  rw [scrollState]
  by_cases hrow : 25 ≤ s.row
  · rw [if_pos (show vgaHeight ≤ s.row from hrow), if_pos hrow]
    intro i hi stamp hstamp
    rw [vgaWidth, vgaHeight] at hi
    dsimp only [scrollStamps] at hstamp ⊢
    by_cases hlt : i < 1920
    · rw [if_pos hlt] at hstamp ⊢
      exact h (i + 80) (by rw [vgaWidth, vgaHeight]; omega) stamp hstamp
    · rw [if_neg hlt, if_pos (by omega)] at hstamp
      exact absurd hstamp (Option.some_ne_none stamp).symm
  · rw [if_neg (show ¬ vgaHeight ≤ s.row from hrow), if_neg hrow]
    exact h

/-- Printing keeps the stamps true if the entry made for the character shows its colour. -/
lemma CellsHoldStamps.put (h : CellsHoldStamps (p, s))
    (hentry : (entryColor (vgaEntry c s.color)).toNat = s.color.toNat) :
    CellsHoldStamps (putStamp c s p, putcharState c s) := by
  by_cases hc : c = newline
  · rw [putStamp, if_pos hc, putcharState, if_pos hc]
    exact h
  · have hscroll := h.scroll
    intro i hi stamp hstamp
    rw [putStamp, if_neg hc] at hstamp
    dsimp only at hstamp ⊢
    rw [buffer_putcharState hc]
    by_cases hcell : i = cellIndex s.column (printRow s)
    · rw [hcell, Function.update_self] at hstamp ⊢
      rw [← Option.some.inj hstamp]
      exact ⟨entryChar_vgaEntry c s.color, hentry⟩
    · rw [Function.update_of_ne hcell] at hstamp ⊢
      exact hscroll i hi stamp hstamp

end

/-- An action under the condition keeps the invariant. -/
theorem StampInv.step {q : Stamps × TerminalState} {act : TerminalAct} (h : StampInv q)
    (hbyte : ByteColor act) (hok : ColorSurvives act q.2) : StampInv (stampStep act q) := by
  cases act with
  | put c =>
    obtain ⟨hcol, hcolor⟩ := column_putcharState_lt (c := c) h.column_lt
    rw [stampStep, actStep, exec_terminalPutchar]
    exact ⟨hcol, by rw [hcolor]; exact h.color_le,
      h.holds.put ((entryColor_vgaEntry_iff c h.color_le).mpr hok)⟩
  | setcolor color => exact ⟨h.column_lt, hbyte, h.holds⟩

/-- An action that leaves the stamps true meets the condition: the cell just printed tells. -/
theorem StampInv.survives_of_holds {q : Stamps × TerminalState} {act : TerminalAct} (h : StampInv q)
    (hgood : CellsHoldStamps (stampStep act q)) : ColorSurvives act q.2 := by
  cases act with
  | setcolor color => trivial
  | put c =>
    by_cases hc : c = newline
    · rw [hc]
      exact Or.inl (by decide)
    · rw [stampStep, actStep, exec_terminalPutchar] at hgood
      have hcell := hgood _ (cellIndex_printRow_lt h.column_lt) ⟨c, q.2.color⟩
        (by rw [putStamp, if_neg hc]; exact Function.update_self _ _ _)
      rw [buffer_putcharState hc, Function.update_self] at hcell
      exact (entryColor_vgaEntry_iff c h.color_le).mp hcell.2

/-- The stamps do not influence the terminal. -/
lemma along_stampStep {ok : TerminalAct → TerminalState → Prop} (acts : List TerminalAct)
    (q : Stamps × TerminalState) :
    Along stampStep (fun act q => ok act q.2) acts q ↔ Along actStep ok acts q.2 := by
  induction acts generalizing q with
  | nil => rfl
  | cons act acts ih =>
    have hstep : (stampStep act q).2 = actStep act q.2 := by cases act <;> rfl
    rw [Along, Along, ih, hstep]

/-- **When the cells keep the character and the colour they were written with.**  After
`terminal_initialize`, for every sequence of `terminal_putchar` calls and of `terminal_setcolor`
calls with colours of one byte, the cells hold what was printed in them at every point of the
sequence if and only if each character was below `0x80` or printed in the colour `0xFF`. -/
theorem cells_hold_stamps_iff (s : TerminalState) (acts : List TerminalAct)
    (hbytes : ∀ act ∈ acts, ByteColor act) :
    (∀ pre, pre <+: acts → CellsHoldStamps (runActions stampStep pre (unstamped s))) ↔
      Along actStep ColorSurvives acts (terminalInitialize.exec s) := by
  have hinit := stampInv_init s
  have hknown : Along stampStep (fun act _ => ByteColor act) acts (unstamped s) :=
    (along_actions stampStep acts _).mpr hbytes
  have hsame : Along stampStep (fun act q => ColorSurvives act q.2) acts (unstamped s) ↔
      Along actStep ColorSurvives acts (terminalInitialize.exec s) :=
    along_stampStep acts (unstamped s)
  rw [← hsame]
  constructor
  · intro hholds
    exact along_of_forall_initial hinit hknown (fun act q hq hbyte hok => hq.step hbyte hok)
      (fun act q hq _ hgood => hq.survives_of_holds hgood) hholds
  · intro hrun pre hpre
    exact ((hknown.and hrun).invariant_initial hinit
      (fun act q hq hok => StampInv.step hq hok.1 hok.2) hpre).holds

/-- The letter `A` in white on blue. -/
theorem cells_hold_stamps_letter :
    CellsHoldStamps (runActions stampStep [.setcolor 0x1F#32, .put 0x41#8]
      (unstamped blankTerminal)) := by
  have hbytes : ∀ act ∈ [TerminalAct.setcolor 0x1F#32, .put 0x41#8], ByteColor act := by
    simp [ByteColor]
  exact (cells_hold_stamps_iff blankTerminal _ hbytes).mpr
    ⟨trivial, Or.inl (by decide), trivial⟩ _ (List.prefix_refl _)

/-- The character `0x80`, printed in light grey on black, is stored as `0xFF80`. -/
theorem not_cells_hold_stamps_high_character :
    (runActions stampStep [.put 0x80#8] (unstamped blankTerminal)).1 0 = some ⟨0x80#8, 7#32⟩ ∧
      (runActions stampStep [.put 0x80#8] (unstamped blankTerminal)).2.buffer 0 = 0xFF80#16 ∧
      ¬ CellsHoldStamps (runActions stampStep [.put 0x80#8] (unstamped blankTerminal)) := by
  have hrun : runActions stampStep [.put 0x80#8] (unstamped blankTerminal) =
      (putStamp 0x80#8 (terminalInitialize.exec blankTerminal) fun _ => none,
        putcharState 0x80#8 (terminalInitialize.exec blankTerminal)) := by
    rw [runActions, runActions, stampStep, actStep, exec_terminalPutchar]
    rfl
  rw [exec_terminalInitialize] at hrun
  have hstamp : (runActions stampStep [.put 0x80#8] (unstamped blankTerminal)).1 0 =
      some ⟨0x80#8, 7#32⟩ := by
    rw [hrun]
    rfl
  have hentry : (runActions stampStep [.put 0x80#8] (unstamped blankTerminal)).2.buffer 0 =
      0xFF80#16 := by
    rw [hrun, buffer_putcharState (by decide)]
    rfl
  refine ⟨hstamp, hentry, fun h => ?_⟩
  have hcell := (h 0 (by decide) _ hstamp).2
  rw [hentry] at hcell
  exact absurd hcell (by decide)

end VVBright
