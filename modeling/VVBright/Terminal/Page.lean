import VVBright.Terminal.Scroll

/-!
# The endless page

What a terminal is for: the text is laid out on an endless page, and the screen shows its last 25
lines.  `Page` is that layout; `PageInv` relates it to the state of the code.  The top line of the
screen is `lastLine - 24`, where `lastLine` is the line of the last printed character: newlines move
the cursor down at once but the screen only with the next printed character.

A character put in the row below the screen scrolls by one row, which is what the page asks for.
Further down the page asks for more rows than the code scrolls, and screen and page agree only if
there was nothing to be seen in the rows that move.
-/

namespace VVBright

open Traced

/-! ## Single characters -/

/-- The elementary actions of the terminal. -/
inductive TerminalAct where
  | put (c : BitVec 8)
  | setcolor (color : BitVec 32)

/-- One elementary action. -/
def actStep : TerminalAct → TerminalState → TerminalState
  | .put c, s => (terminalPutchar c).exec s
  | .setcolor color, s => (terminalSetcolor color).exec s

/-- The elementary actions of a call. -/
def TerminalCall.acts : TerminalCall → List TerminalAct
  | .putchar c => [.put c]
  | .write data => (cString data).map .put
  | .writestring data => (cString data).map .put
  | .setcolor color => [.setcolor color]

/-- Putting characters, with `terminal_putchar` as one change of state. -/
lemma runActions_put (text : List (BitVec 8)) (s : TerminalState) :
    runActions actStep (text.map .put) s = text.foldl (fun s c => putcharState c s) s := by
  induction text generalizing s with
  | nil => rfl
  | cons c text ih =>
    rw [List.map_cons, runActions, ih, actStep, exec_terminalPutchar, List.foldl_cons]

/-- A run of calls is the run of their elementary actions. -/
lemma runActions_acts (calls : List TerminalCall) (s : TerminalState) :
    runActions actStep (calls.flatMap TerminalCall.acts) s = runActions terminalStep calls s := by
  induction calls generalizing s with
  | nil => rfl
  | cons call calls ih =>
    rw [List.flatMap_cons, runActions_append, ih, runActions]
    cases call with
    | putchar c => rfl
    | write data => rw [TerminalCall.acts, runActions_put, ← exec_terminalWrite]; rfl
    | writestring data => rw [TerminalCall.acts, runActions_put, ← exec_terminalWrite]; rfl
    | setcolor color => rfl

/-- An elementary action as a call. -/
def TerminalAct.call : TerminalAct → TerminalCall
  | .put c => .putchar c
  | .setcolor color => .setcolor color

lemma acts_call (acts : List TerminalAct) :
    (acts.map TerminalAct.call).flatMap TerminalCall.acts = acts := by
  induction acts with
  | nil => rfl
  | cons act acts ih =>
    rw [List.map_cons, List.flatMap_cons, ih]
    cases act <;> rfl

/-! ## The page -/

/-- A text laid out on an endless page of 80 columns. -/
structure Page where
  /-- The line the next character goes to. -/
  line : ℕ
  /-- The column the next character goes to. -/
  column : ℕ
  /-- The character placed at a line and a column. -/
  char : ℕ → ℕ → Option (BitVec 8)
  /-- The line of the last character that was placed. -/
  lastLine : ℕ
  /-- The text ends with a character that was placed. -/
  endsPlaced : Bool

/-- The page without text. -/
def Page.empty : Page := ⟨0, 0, fun _ _ => none, 0, false⟩

/-- The page with one more character. -/
def Page.put (c : BitVec 8) (p : Page) : Page :=
  if c = newline then
    { p with line := p.line + 1, column := 0, endsPlaced := false }
  else
    { line := if p.column + 1 = 80 then p.line + 1 else p.line
      column := if p.column + 1 = 80 then 0 else p.column + 1
      char := fun l x => if l = p.line ∧ x = p.column then some c else p.char l x
      lastLine := p.line
      endsPlaced := true }

/-- What an elementary action adds to the page. -/
def pageStep : TerminalAct → Page → Page
  | .put c, p => p.put c
  | .setcolor _, p => p

/-- The page of a list of elementary actions. -/
def layout (acts : List TerminalAct) : Page := runActions pageStep acts Page.empty

/-- What is to be seen at a line and a column: a space where nothing was placed. -/
def Page.charAt (p : Page) (l x : ℕ) : BitVec 8 := (p.char l x).getD space

/-- The screen shows the last 25 lines of the page, if the text does not end with a newline. -/
def ShowsLastLines (q : Page × TerminalState) : Prop :=
  q.1.endsPlaced = true → ∀ r < vgaHeight, ∀ x < vgaWidth,
    entryChar (q.2.buffer (cellIndex x r)) = q.1.charAt (q.1.lastLine - 24 + r) x

/-- The rows 1 to 24 of the screen are blank. -/
def RowsBlank (s : TerminalState) : Prop :=
  ∀ r, 1 ≤ r → r < vgaHeight → ∀ x < vgaWidth, entryChar (s.buffer (cellIndex x r)) = space

/-- The row counter does not wrap around, and a character that is placed is at most one row below
the screen, or the rows 1 to 24 are blank. -/
def ScrollsEnough : TerminalAct → TerminalState → Prop
  | .put c, s => if c = newline then s.row + 1 < 2 ^ 32 else s.row ≤ vgaHeight ∨ RowsBlank s
  | .setcolor _, _ => True

/-! ## The invariant -/

/-- The code is in step with the page. -/
structure PageInv (q : Page × TerminalState) : Prop where
  /-- The cursor is in a column of the screen. -/
  column_lt : q.2.column < 80
  /-- The columns are the same. -/
  column_eq : q.2.column = q.1.column
  /-- Rows are counted from the top line of the screen. -/
  row_eq : q.1.lastLine - 24 + q.2.row = q.1.line
  /-- Below the screen the cursor is at the start of a row. -/
  below : 25 ≤ q.2.row → q.2.column = 0
  /-- The last character is not below the cursor. -/
  last_le : q.1.lastLine ≤ q.1.line
  /-- Nothing is placed below the last character. -/
  empty : ∀ l x, q.1.lastLine < l → q.1.char l x = none
  /-- The screen shows the page from its top line on. -/
  cells : ∀ r < 25, ∀ x < 80,
    entryChar (q.2.buffer (80 * r + x)) = q.1.charAt (q.1.lastLine - 24 + r) x

lemma pageInv_init (s : TerminalState) : PageInv (Page.empty, terminalInitialize.exec s) := by
  rw [exec_terminalInitialize]
  refine ⟨by norm_num, rfl, rfl, by simp, le_rfl, fun _ _ _ => rfl, ?_⟩
  intro r hr x hx
  change entryChar (if 80 * r + x < 2000 then _ else _) = space
  rw [if_pos (by omega), entryChar_vgaEntry]

/-- In step with the page, the screen shows its last lines. -/
lemma PageInv.shows {q : Page × TerminalState} (h : PageInv q) : ShowsLastLines q := by
  intro _ r hr x hx
  rw [cellIndex_eq hx hr]
  exact h.cells r hr x hx

section

variable {p : Page} {s : TerminalState} {c : BitVec 8}

lemma Page.put_newline (p : Page) :
    p.put newline = { p with line := p.line + 1, column := 0, endsPlaced := false } := if_pos rfl

lemma Page.put_of_ne (hc : c ≠ newline) (p : Page) :
    p.put c =
      { line := if p.column + 1 = 80 then p.line + 1 else p.line
        column := if p.column + 1 = 80 then 0 else p.column + 1
        char := fun l x => if l = p.line ∧ x = p.column then some c else p.char l x
        lastLine := p.line
        endsPlaced := true } := if_neg hc

/-- Away from the cursor a new character changes nothing on the page. -/
lemma Page.charAt_put_of_ne (hc : c ≠ newline) {l x : ℕ} (hne : ¬ (l = p.line ∧ x = p.column)) :
    (p.put c).charAt l x = p.charAt l x := by
  rw [Page.put_of_ne hc, Page.charAt, Page.charAt]
  dsimp only
  rw [if_neg hne]

lemma Page.charAt_put_self (hc : c ≠ newline) : (p.put c).charAt p.line p.column = c := by
  rw [Page.put_of_ne hc, Page.charAt]
  dsimp only
  rw [if_pos (And.intro rfl rfl), Option.getD_some]

/-- Below the last character the page is blank. -/
lemma PageInv.charAt_below (h : PageInv (p, s)) {l : ℕ} (x : ℕ) (hl : p.lastLine < l) :
    p.charAt l x = space := by
  rw [Page.charAt, h.empty l x hl, Option.getD_none]

lemma PageInv.newline (h : PageInv (p, s)) (hrow : s.row + 1 < 2 ^ 32) :
    PageInv (p.put newline, putcharState newline s) := by
  have hrow_eq := h.row_eq
  have hlast := h.last_le
  dsimp only at hrow_eq hlast
  rw [Page.put_newline, putcharState_newline hrow]
  refine ⟨by norm_num, rfl, ?_, fun _ => rfl, ?_, h.empty, h.cells⟩
  · change p.lastLine - 24 + (s.row + 1) = p.line + 1
    omega
  · change p.lastLine ≤ p.line + 1
    omega

/-- A character is put on the line the cursor is in, so nothing is placed below it. -/
lemma PageInv.empty_put (h : PageInv (p, s)) (hc : c ≠ VVBright.newline) :
    (p.put c).lastLine ≤ (p.put c).line ∧
      ∀ l x, (p.put c).lastLine < l → (p.put c).char l x = none := by
  have hlast := h.last_le
  dsimp only at hlast
  rw [Page.put_of_ne hc]
  constructor
  · change p.line ≤ if p.column + 1 = 80 then p.line + 1 else p.line
    split <;> omega
  · intro l x hl
    change (if l = p.line ∧ x = p.column then some c else p.char l x) = none
    change p.line < l at hl
    rw [if_neg (by omega)]
    exact h.empty l x (by change p.lastLine < l; omega)

/-- A character on the screen. -/
lemma PageInv.put_on_screen (h : PageInv (p, s)) (hc : c ≠ VVBright.newline) (hrow : s.row < 25) :
    PageInv (p.put c, putcharState c s) := by
  have hcol := h.column_lt
  have hcol_eq := h.column_eq
  have hrow_eq := h.row_eq
  have hlast := h.last_le
  dsimp only at hcol hcol_eq hrow_eq hlast
  have htop : p.line - 24 = p.lastLine - 24 := by omega
  have hcells : ∀ r < 25, ∀ x < 80, entryChar ((putcharState c s).buffer (80 * r + x)) =
      (p.put c).charAt (p.line - 24 + r) x := by
    intro r hr x hx
    rw [putcharState_on_screen hc hcol hrow]
    dsimp only
    by_cases hcell : r = s.row ∧ x = s.column
    · obtain ⟨rfl, rfl⟩ := hcell
      rw [Function.update_self, entryChar_vgaEntry, htop, hrow_eq, hcol_eq,
        Page.charAt_put_self hc]
    · rw [Function.update_of_ne (by omega), h.cells r hr x hx, htop,
        Page.charAt_put_of_ne hc (by omega)]
  obtain ⟨hle, hempty⟩ := h.empty_put hc
  rw [Page.put_of_ne hc] at hcells hle hempty ⊢
  rw [putcharState_on_screen hc hcol hrow] at hcells ⊢
  refine ⟨?_, ?_, ?_, ?_, hle, hempty, hcells⟩
  · change (if s.column + 1 = 80 then 0 else s.column + 1) < 80
    split <;> omega
  · change (if s.column + 1 = 80 then 0 else s.column + 1) =
      if p.column + 1 = 80 then 0 else p.column + 1
    rw [hcol_eq]
  · change p.line - 24 + (if s.column + 1 = 80 then s.row + 1 else s.row) =
      if p.column + 1 = 80 then p.line + 1 else p.line
    rw [hcol_eq]
    split <;> omega
  · change 25 ≤ (if s.column + 1 = 80 then s.row + 1 else s.row) →
      (if s.column + 1 = 80 then 0 else s.column + 1) = 0
    split <;> omega

/-- A character below the screen, when the rows the code moves up are the ones the page asks for. -/
lemma PageInv.put_below (h : PageInv (p, s)) (hc : c ≠ VVBright.newline) (hrow : 25 ≤ s.row)
    (hshift : ∀ r < 24, ∀ x < 80,
      entryChar (s.buffer (80 * (r + 1) + x)) = p.charAt (p.line - 24 + r) x) :
    PageInv (p.put c, putcharState c s) := by
  have hcol : s.column = 0 := h.below hrow
  have hcol_eq := h.column_eq
  have hrow_eq := h.row_eq
  have hlast := h.last_le
  dsimp only at hcol_eq hrow_eq hlast
  rw [hcol] at hcol_eq
  have hcells : ∀ r < 25, ∀ x < 80, entryChar ((putcharState c s).buffer (80 * r + x)) =
      (p.put c).charAt (p.line - 24 + r) x := by
    intro r hr x hx
    rw [putcharState_below hc hcol hrow]
    dsimp only
    by_cases hlt : r < 24
    · rw [Function.update_of_ne (by omega), if_pos (by omega), Page.charAt_put_of_ne hc (by omega),
        ← hshift r hlt x hx]
      congr 2
      omega
    · -- the new last row: the character in column 0, nothing after it
      obtain rfl : r = 24 := by omega
      have hline : p.line - 24 + 24 = p.line := by omega
      rw [hline]
      by_cases hx0 : x = 0
      · rw [hx0, hcol_eq, Page.charAt_put_self hc, ← hcol_eq]
        exact entryChar_vgaEntry c s.color
      · rw [Function.update_of_ne (by omega), if_neg (by omega), if_pos (by omega),
          entryChar_vgaEntry, Page.charAt_put_of_ne hc (by omega), h.charAt_below x (by omega)]
  obtain ⟨hle, hempty⟩ := h.empty_put hc
  rw [Page.put_of_ne hc] at hcells hle hempty ⊢
  rw [putcharState_below hc hcol hrow] at hcells ⊢
  refine ⟨by norm_num, ?_, ?_, by norm_num, hle, hempty, hcells⟩
  · change 1 = if p.column + 1 = 80 then 0 else p.column + 1
    rw [← hcol_eq]
    rfl
  · change p.line - 24 + 24 = if p.column + 1 = 80 then p.line + 1 else p.line
    rw [← hcol_eq, if_neg (by norm_num)]
    omega

/-- Under the condition the code moves up the rows the page asks for. -/
lemma PageInv.shift_of_scrollsEnough (h : PageInv (p, s)) (hrow : 25 ≤ s.row)
    (hok : s.row ≤ 25 ∨ RowsBlank s) :
    ∀ r < 24, ∀ x < 80, entryChar (s.buffer (80 * (r + 1) + x)) = p.charAt (p.line - 24 + r) x := by
  intro r hr x hx
  have hrow_eq := h.row_eq
  dsimp only at hrow_eq
  rcases hok with hle | hblank
  · -- one row below the screen
    rw [h.cells (r + 1) (by omega) x hx]
    change p.charAt (p.lastLine - 24 + (r + 1)) x = _
    congr 1
    omega
  · have hsee : ∀ r', 1 ≤ r' → p.charAt (p.lastLine - 24 + r') x = space := by
      intro r' hr'
      by_cases hlt : r' < 25
      · have hcell := hblank r' hr' hlt x hx
        rw [cellIndex_eq hx hlt] at hcell
        rw [← hcell]
        exact (h.cells r' hlt x hx).symm
      · exact h.charAt_below x (by omega)
    have hcell := hblank (r + 1) (by omega) (Nat.succ_lt_succ hr) x hx
    rw [cellIndex_eq hx (by omega)] at hcell
    rw [hcell, ← hsee (s.row - 24 + r) (by omega)]
    congr 1
    omega

/-- One elementary action under the condition keeps the code in step with the page. -/
theorem PageInv.step {act : TerminalAct} {q : Page × TerminalState} (h : PageInv q)
    (hok : ScrollsEnough act q.2) : PageInv (pairStep pageStep actStep act q) := by
  obtain ⟨p, s⟩ := q
  cases act with
  | setcolor color => exact ⟨h.1, h.2, h.3, h.4, h.5, h.6, h.7⟩
  | put c =>
    rw [pairStep, pageStep, actStep, exec_terminalPutchar]
    by_cases hc : c = VVBright.newline
    · subst hc
      rw [ScrollsEnough, if_pos rfl] at hok
      exact h.newline hok
    · rw [ScrollsEnough, if_neg hc] at hok
      by_cases hrow : s.row < 25
      · exact h.put_on_screen hc hrow
      · have hrow' : 25 ≤ s.row := Nat.le_of_not_lt hrow
        exact h.put_below hc hrow' (h.shift_of_scrollsEnough hrow' hok)

/-- If the screen is right after a character put below it, the rows the code moved up are the ones
the page asked for. -/
lemma PageInv.shift_of_shows (h : PageInv (p, s)) (hc : c ≠ VVBright.newline) (hrow : 25 ≤ s.row)
    (hshows : ShowsLastLines (p.put c, putcharState c s)) :
    ∀ r < 24, ∀ x < 80,
      entryChar (s.buffer (80 * (r + 1) + x)) = p.charAt (p.line - 24 + r) x := by
  intro r hr x hx
  have hrow_eq := h.row_eq
  dsimp only at hrow_eq
  have hcol : s.column = 0 := h.below hrow
  have hplaced : (p.put c).endsPlaced = true := by rw [Page.put_of_ne hc]
  have hlastLine : (p.put c).lastLine = p.line := by rw [Page.put_of_ne hc]
  have hcell := hshows hplaced r (Nat.lt_succ_of_lt hr) x hx
  dsimp only at hcell
  rw [cellIndex_eq hx (by omega), hlastLine, Page.charAt_put_of_ne hc (by omega),
    putcharState_below hc hcol (by omega)] at hcell
  dsimp only at hcell
  rw [Function.update_of_ne (by omega), if_pos (by omega)] at hcell
  rw [← hcell]
  congr 2
  omega

/-- A placed character after which screen and page agree meets the condition. -/
lemma PageInv.scrollsEnough_of_shows (h : PageInv (p, s)) (hc : c ≠ VVBright.newline)
    (hshows : ShowsLastLines (p.put c, putcharState c s)) : s.row ≤ 25 ∨ RowsBlank s := by
  by_cases hrow : s.row ≤ 25
  · exact Or.inl hrow
  · right
    have hrow_eq := h.row_eq
    have hlast := h.last_le
    dsimp only at hrow_eq hlast
    have hshift := h.shift_of_shows hc (by omega) hshows
    -- from the last row up, every row equals one further down or one that was never written
    have hblank : ∀ n < 24, ∀ x < 80, entryChar (s.buffer (80 * (24 - n) + x)) = space := by
      intro n
      induction n using Nat.strong_induction_on with
      | _ n ih =>
        intro hn x hx
        have hcell := hshift (23 - n) (by omega) x hx
        rw [show 23 - n + 1 = 24 - n by omega] at hcell
        rw [hcell]
        by_cases hfar : 24 < s.row - 24 + (23 - n)
        · exact h.charAt_below x (by omega)
        · have hrest := ih (24 - (s.row - 24 + (23 - n))) (by omega) (by omega) x hx
          rw [show 24 - (24 - (s.row - 24 + (23 - n))) = s.row - 24 + (23 - n) by omega,
            h.cells _ (by omega) x hx] at hrest
          rw [← hrest]
          change p.charAt _ x = p.charAt (p.lastLine - 24 + _) x
          congr 1
          omega
    intro r hr1 hr x hx
    rw [cellIndex_eq hx hr]
    have hcell := hblank (24 - r) (by omega) x hx
    rwa [show 24 - (24 - r) = r by change r < 25 at hr; omega] at hcell

end

/-! ## Runs -/

/-- The text of a list of elementary actions. -/
def actText : TerminalAct → List (BitVec 8)
  | .put c => [c]
  | .setcolor _ => []

lemma actText_acts (calls : List TerminalCall) :
    (calls.flatMap TerminalCall.acts).flatMap actText = textOf calls := by
  rw [List.flatMap_assoc, textOf]
  have hput : ∀ text : List (BitVec 8), (text.map TerminalAct.put).flatMap actText = text := by
    intro text
    induction text with
    | nil => rfl
    | cons c text ih =>
      rw [List.map_cons, List.flatMap_cons, ih]
      rfl
  congr 1
  funext call
  cases call with
  | putchar c => rfl
  | setcolor color => rfl
  | write data => exact hput _
  | writestring data => exact hput _

/-- The row counter does not wrap around within `2 ^ 32` characters. -/
lemma along_row_lt {n : ℕ} {s : TerminalState} (h : TermInv n s) (acts : List TerminalAct)
    (hn : n + (acts.flatMap actText).length < 2 ^ 32) :
    Along actStep (fun act s => act = .put newline → s.row + 1 < 2 ^ 32) acts s := by
  induction acts generalizing n s with
  | nil => trivial
  | cons act acts ih =>
    rw [List.flatMap_cons, List.length_append] at hn
    have hrow := h.row_le
    cases act with
    | setcolor color =>
      have hzero : (actText (.setcolor color)).length = 0 := rfl
      rw [hzero, Nat.zero_add] at hn
      refine ⟨fun habs => ?_, ih (h.setcolor color) hn⟩
      cases habs
    | put c =>
      have hone : (actText (.put c)).length = 1 := rfl
      rw [hone] at hn
      refine ⟨fun _ => by omega, ih (n := n + 1) ?_ (by omega)⟩
      rw [actStep, exec_terminalPutchar]
      exact h.putchar (by omega) c

/-- **When the terminal shows the last 25 lines.**  If, after `terminal_initialize`, every placed
character is put at most one row below the screen or while the rows 1 to 24 are blank, and the row
counter never wraps around, then after every part of the calls the screen shows the last 25 lines of
the page.  For fewer than `2 ^ 32` characters these are the only texts that are shown that way. -/
theorem showsLastLines_iff_scrollsEnough (s₀ : TerminalState) (calls : List TerminalCall) :
    let s := terminalInitialize.exec s₀
    let acts := calls.flatMap TerminalCall.acts
    (Along actStep ScrollsEnough acts s → ∀ calls', calls'.flatMap TerminalCall.acts <+: acts →
      ShowsLastLines (layout (calls'.flatMap TerminalCall.acts),
        runActions terminalStep calls' s)) ∧
    ((textOf calls).length < 2 ^ 32 →
      (∀ calls', calls'.flatMap TerminalCall.acts <+: acts →
        ShowsLastLines (layout (calls'.flatMap TerminalCall.acts),
          runActions terminalStep calls' s)) →
      Along actStep ScrollsEnough acts s) := by
  intro s acts
  have hstart : PageInv (Page.empty, s) := pageInv_init s₀
  have hpair := fun bs => runActions_pairStep pageStep actStep bs Page.empty s
  refine ⟨fun hrun calls' hpre => ?_, fun hlen hshows => ?_⟩
  · rw [← along_pairStep_snd pageStep actStep acts Page.empty s] at hrun
    have hinv := hrun.invariant_initial hstart (fun act q hq hok => hq.step hok) hpre
    rw [hpair] at hinv
    rw [← runActions_acts]
    exact hinv.shows
  · have hrow : Along actStep (fun act s => act = .put newline → s.row + 1 < 2 ^ 32) acts s :=
      along_row_lt (termInv_init s₀) acts (by rw [actText_acts]; omega)
    rw [← along_pairStep_snd pageStep actStep acts Page.empty s] at hrow ⊢
    have hshows' : ∀ bs, bs <+: acts →
        ShowsLastLines (runActions (pairStep pageStep actStep) bs (Page.empty, s)) := by
      intro bs hbs
      have hops := hshows (bs.map TerminalAct.call) (by rwa [acts_call])
      rw [acts_call, ← runActions_acts, acts_call] at hops
      rw [hpair]
      exact hops
    refine along_of_forall_initial hstart hrow (fun act q hq _ hok => hq.step hok) ?_ hshows'
    rintro (c | color) ⟨p, s⟩ hq hrow hgood
    · rw [pairStep, pageStep, actStep, exec_terminalPutchar] at hgood
      rw [ScrollsEnough]
      by_cases hc : c = newline
      · rw [if_pos hc]
        exact hrow (by rw [hc])
      · rw [if_neg hc]
        exact hq.scrollsEnough_of_shows hc hgood
    · trivial

/-- A blank line, `'X'`, 25 newlines and `'a'`. -/
def blankLinesText : List (BitVec 8) :=
  newline :: 0x58#8 :: (List.replicate 25 newline ++ [0x61#8, 0#8])

/-- The page has moved on by two lines when `'a'` is placed, but the screen by one row: the `'X'` of
line 1 is still to be seen in the upper left corner, where line 2 should be. -/
theorem not_showsLastLines_blankLines :
    ¬ ShowsLastLines (layout (TerminalCall.acts (.write blankLinesText)),
      runActions terminalStep [.write blankLinesText] (terminalInitialize.exec blankTerminal)) := by
  intro hshows
  have hcell := hshows (by decide +kernel) 0 (by decide) 0 (by decide)
  rw [runActions, runActions, terminalStep, TerminalCall.run, exec_terminalWrite,
    exec_terminalInitialize] at hcell
  exact absurd hcell (by decide +kernel)

end VVBright
