import VVBright.Memory.HighWater
import VVBright.Memory.Locality
import VVBright.Terminal.Screen

/-!
# The screen, the manager and the client in one memory

`terminal.c` and `memory.c` know nothing of each other, and nothing but the layout of memory keeps
them apart: the text buffer lies in frame 184, which `paging_init` leaves unmarked, and the pages
the client may write are wherever `alloc_frame` found them.  `SharedMemory` puts the parts together:
one memory, in which the calls of the manager, the calls of the terminal and the client's own stores
are interleaved as it happens.

As long as fewer than 184 frames are in use when a frame is asked for, and the first 4 MB stay
mapped to themselves, the parts do not notice each other.  The terminal is local to the screen
(`SameScreen.call`), the manager to the bitmap and its tables (`SameManager.step`), and the
invariant `SharedInv` keeps the two regions apart from each other and from what the client owns.
-/

namespace VVBright

open Traced

/-- The client with another memory. -/
def Client.withMem (c : Client) (m : Memory) : Client := { c with st := { c.st with mem := m } }

/-- The memory manager with its client, and the variables of the terminal.  The text buffer is part
of the memory. -/
structure SharedMemory where
  client : Client
  /-- `terminal_row`. -/
  row : ℕ
  /-- `terminal_column`. -/
  column : ℕ
  /-- `terminal_color`. -/
  color : BitVec 32

/-- The terminal, with the cells of memory as its buffer. -/
def SharedMemory.terminal (M : SharedMemory) : TerminalState :=
  ⟨M.row, M.column, M.color, cellsOf M.client.st.mem⟩

/-- What happens in the memory. -/
inductive SharedEvent where
  /-- A call of the memory manager. -/
  | manager (call : Call)
  /-- A call of the terminal. -/
  | terminal (call : TerminalCall)
  /-- The client stores a byte. -/
  | store (x : BitVec 32) (b : BitVec 8)

def SharedMemory.step : SharedEvent → SharedMemory → SharedMemory
  | .manager call, M => { M with client := Client.step call M.client }
  | .terminal call, M =>
    let t := call.run.exec M.terminal
    ⟨M.client.withMem (memoryOf t.buffer), t.row, t.column, t.color⟩
  | .store x b, M => { M with client := M.client.withMem (Function.update M.client.st.mem x b) }

/-- The memory after `memory_init`, with the cursor anywhere. -/
def SharedMemory.start (s : MemoryState) (row column : ℕ) (color : BitVec 32) : SharedMemory :=
  ⟨Client.start (memoryInit.exec s), row, column, color⟩

/-- The frame of the text buffer. -/
def textFrame : ℕ := 184

/-- What may happen in a run: the client frees only what it holds, maps no page of the first 4 MB of
the kernel directory anew, asks for a frame only while fewer than 184 are in use, makes no heap
request that wraps around, and stores only to bytes it owns. -/
def PermittedEvent : SharedEvent → SharedMemory → Prop
  | .manager call, M => ManagerCall call M.client ∧ MapsAbove call ∧
      SeesFewInUse textFrame call M.client ∧
      ∀ size, call = .kmalloc size → NoWrap (.kmalloc size) M.client
  | .terminal _, _ => True
  | .store x _, M => M.client.Owns x

/-- The calls of the manager in a run. -/
def SharedEvent.managerCall : SharedEvent → Option Call
  | .manager call => some call
  | _ => none

/-- The calls of the terminal in a run. -/
def SharedEvent.terminalCall : SharedEvent → Option TerminalCall
  | .terminal call => some call
  | _ => none

/-- The invariant of permitted runs. -/
structure SharedInv (M : SharedMemory) : Prop where
  own : OwnInv M.client
  /-- Only frames below that of the text buffer are marked. -/
  below : BelowInv textFrame M.client
  column : ColumnOnScreen M.terminal

/-! ## The regions are apart -/

lemma frameOf_of_inTextMemory {x : BitVec 32} (hx : InTextMemory x) : frameOf x = textFrame := by
  rw [InTextMemory, vgaMemory] at hx
  rw [frameOf, textFrame]
  bv_omega

section

variable {M : SharedMemory} {x : BitVec 32}

/-- Page tables lie below the text buffer. -/
lemma SharedInv.tableFrame_lt (h : SharedInv M) (slot : DirPtr × Fin 1024) :
    tableFrame M.client.st slot < textFrame :=
  h.below.below _ ((h.own.accounts.mem_marked_iff _).mpr (Or.inr (Or.inr ⟨slot, rfl⟩)))

/-- The manager's bytes are off the screen. -/
lemma SharedInv.not_inTextMemory_of_manager (h : SharedInv M)
    (hx : x ∈ managerBytes M.client.st) : ¬ InTextMemory x := by
  intro htext
  have hframe := frameOf_of_inTextMemory htext
  rcases hx with ⟨hlo, -⟩ | ⟨slot, -, hslot⟩
  · rw [frameOf, textFrame] at hframe
    omega
  · exact absurd (hslot.symm.trans hframe) (h.tableFrame_lt slot).ne

/-- The client's bytes are off the screen and are not the manager's. -/
lemma SharedInv.off_of_owns (h : SharedInv M) (hx : M.client.Owns x) :
    ¬ InTextMemory x ∧ x ∉ managerBytes M.client.st := by
  obtain ⟨hoff, htables, -⟩ := h.own.off_of_owns hx
  constructor
  · intro htext
    have hframe := frameOf_of_inTextMemory htext
    rcases hx with ⟨q, hq, hqx⟩ | ⟨b, hb, hlo, -⟩
    · have hmarked : frameOf x ∈ markedFrames M.client.st :=
        (h.own.accounts.mem_marked_iff _).mpr
          (Or.inr (Or.inl (List.mem_map.mpr ⟨q, hq, hqx⟩)))
      exact absurd hframe (h.below.below _ hmarked).ne
    · have hstart := h.own.heap.start_le_block b hb
      rw [frameOf, textFrame] at hframe
      omega
  · rintro (⟨hlo, hhi⟩ | ⟨slot, -, hslot⟩)
    · omega
    · exact htables slot hslot

end

/-! ## Every event leaves the other regions alone -/

section

variable {M : SharedMemory} {x : BitVec 32}

/-- A permitted call of the manager takes a frame below the text buffer, if any. -/
lemma SharedInv.takesBelow {call : Call} (h : SharedInv M)
    (hok : PermittedEvent (.manager call) M) :
    TakesBelow textFrame call M.client ∧ TakesUnused call M.client := by
  have htakes := h.below.takesBelow_iff.mpr hok.2.2.1
  exact ⟨htakes, htakes.takesUnused (by norm_num [textFrame])⟩

lemma SharedInv.ownerCall {call : Call} (h : SharedInv M)
    (hok : PermittedEvent (.manager call) M) : OwnerCall call M.client :=
  ⟨hok.1, hok.2.1, h.own.low.seesLowFrame (h.takesBelow hok).2, hok.2.2.2⟩

/-- The manager does not write to the screen. -/
lemma SharedInv.mem_manager_of_text {call : Call} (h : SharedInv M)
    (hok : PermittedEvent (.manager call) M) (hx : InTextMemory x) :
    (Client.step call M.client).st.mem x = M.client.st.mem x := by
  have hframe := frameOf_of_inTextMemory hx
  obtain ⟨htakes, hunused⟩ := h.takesBelow hok
  refine h.own.low.mem_step hok.1 hunused (Or.inl ?_) ?_ ?_
  · rw [frameOf, textFrame] at hframe
    omega
  · intro slot
    rw [hframe]
    exact (h.tableFrame_lt slot).ne'
  · intro halloc
    rw [hframe]
    exact (htakes halloc).ne'

/-- The terminal writes to the screen only. -/
lemma SharedInv.mem_terminal_of_not_text (h : SharedInv M) (call : TerminalCall)
    (hx : ¬ InTextMemory x) :
    memoryOf (call.run.exec M.terminal).buffer x = M.client.st.mem x :=
  memoryOf_of_not_text (call.run_local h.column).2 hx

end

/-! ## The invariant -/

section

variable {c : Client} {m : Memory}

lemma markedFrames_withMem (hready : BitmapReady c.st) (hm : ∀ x ∈ bitmapBytes, m x = c.st.mem x) :
    markedFrames (c.withMem m).st = markedFrames c.st :=
  AgreeOn.markedFrames ⟨rfl, hm⟩ Set.Subset.rfl hready

/-- A change of memory off the bitmap does not disturb the manager's accounts. -/
lemma BelowInv.withMem {B : ℕ} (h : BelowInv B c) (hm : ∀ x ∈ bitmapBytes, m x = c.st.mem x) :
    BelowInv B (c.withMem m) := by
  have hmarked := markedFrames_withMem h.low.ready hm
  have hready : BitmapReady (c.withMem m).st := ⟨h.low.ready.frames_eq, h.low.ready.nFrames_eq⟩
  refine ⟨⟨hready, ?_, h.low.held, h.low.tables⟩, ?_, ?_⟩
  · rw [hmarked]
    exact h.low.free
  · rw [FramesAccounted, hmarked]
    exact h.accounts
  · rw [hmarked]
    exact h.below

/-- Frame 1, with the mapping of the first 4 MB, is the manager's. -/
lemma OwnInv.frame_one (h : OwnInv c) {x : BitVec 32} (hx : frameOf x = 1) :
    x ∈ managerBytes c.st := by
  refine Or.inr ⟨(kernelDirectory, 0), ?_, ?_⟩ <;> rw [h.tableFrame_eq]
  · norm_num
  · exact hx

lemma SharedInv.withMem {M : SharedMemory} (h : SharedInv M)
    (hm : ∀ x ∈ managerBytes M.client.st, m x = M.client.st.mem x) {row column : ℕ}
    {color : BitVec 32} (hcol : column < vgaWidth) :
    SharedInv ⟨M.client.withMem m, row, column, color⟩ := by
  have hbelow := h.below.withMem fun x hx => hm x (Or.inl hx)
  have hlinked : KernelLinked (M.client.withMem m).st :=
    ⟨h.own.linked.aligned, h.own.linked.above_bitmap, h.own.linked.below_heap⟩
  exact ⟨⟨hbelow.low, h.own.heap.congr rfl rfl rfl rfl, hbelow.accounts, hlinked,
    h.own.mapped.withMem fun x hx => hm x (h.own.frame_one hx), h.own.table⟩, hbelow, hcol⟩

/-- A change of memory off the manager's bytes. -/
lemma SameManager.withMem {c' : Client} (h : SameManager c c')
    (hm : ∀ x ∈ managerBytes c.st, m x = c.st.mem x) : SameManager (c.withMem m) c' :=
  ⟨h.rest, h.state.rest, fun x hx => (h.state.bytes x hx).trans (hm x hx).symm⟩

end

/-- What an event other than a call of the manager does to the manager's bytes. -/
lemma SharedInv.mem_of_manager {M : SharedMemory} (h : SharedInv M) {event : SharedEvent}
    (hok : PermittedEvent event M) (hevent : event.managerCall = none) {x : BitVec 32}
    (hx : x ∈ managerBytes M.client.st) :
    (SharedMemory.step event M).client.st.mem x = M.client.st.mem x := by
  cases event with
  | manager call => exact absurd hevent (Option.some_ne_none call)
  | terminal call => exact h.mem_terminal_of_not_text call (h.not_inTextMemory_of_manager hx)
  | store y b =>
    refine Function.update_of_ne ?_ _ _
    rintro rfl
    exact (h.off_of_owns hok).2 hx

/-- Every permitted event keeps the invariant. -/
theorem SharedInv.step {M : SharedMemory} (h : SharedInv M) {event : SharedEvent}
    (hok : PermittedEvent event M) : SharedInv (SharedMemory.step event M) := by
  cases event with
  | manager call =>
    exact ⟨h.own.step (h.ownerCall hok),
      h.below.step (by norm_num [textFrame]) hok.1 (h.takesBelow hok).1, h.column⟩
  | terminal call => exact h.withMem (fun x hx => h.mem_of_manager hok rfl hx) (h.column.call call)
  | store y b => exact h.withMem (fun x hx => h.mem_of_manager hok rfl hx) h.column

lemma sharedInv_start {s : MemoryState} (hlinked : KernelLinked s)
    (hempty : ∀ d, d ≠ kernelDirectory → ∀ i, (s.dirs d).tables i = NULL) (row : ℕ) {column : ℕ}
    (hcol : column < vgaWidth) (color : BitVec 32) :
    SharedInv (SharedMemory.start s row column color) :=
  ⟨ownInv_memoryInit hlinked hempty, belowInv_memoryInit hempty (by norm_num [textFrame]), hcol⟩

/-! ## The parts -/

section

variable {M : SharedMemory} {event : SharedEvent}

/-- A call of the terminal does to the screen what it does to a terminal by itself. -/
lemma screen_terminal {t : TerminalState} (hscreen : SameScreen M.terminal t)
    (call : TerminalCall) :
    SameScreen (SharedMemory.step (.terminal call) M).terminal (call.run.exec t) := by
  have hcells : SameScreen (SharedMemory.step (.terminal call) M).terminal
      (call.run.exec M.terminal) := by
    refine ⟨rfl, rfl, rfl, fun i hi => ?_⟩
    rw [vgaWidth, vgaHeight] at hi
    exact cellsOf_memoryOf _ (by omega)
  exact hcells.trans (hscreen.call call)

/-- Nothing else reaches the screen. -/
lemma SharedInv.screen_of_none (h : SharedInv M) (hok : PermittedEvent event M)
    (hevent : event.terminalCall = none) :
    SameScreen (SharedMemory.step event M).terminal M.terminal := by
  cases event with
  | terminal call => exact absurd hevent (Option.some_ne_none call)
  | manager call =>
    exact ⟨rfl, rfl, rfl, fun i hi => cellsOf_congr (fun x hx => h.mem_manager_of_text hok hx) hi⟩
  | store y b =>
    refine ⟨rfl, rfl, rfl, fun i hi => cellsOf_congr (fun x hx => ?_) hi⟩
    refine Function.update_of_ne ?_ _ _
    rintro rfl
    exact (h.off_of_owns hok).1 hx

/-- Nothing but a call reaches the manager. -/
lemma SharedInv.manager_of_none (h : SharedInv M) (hok : PermittedEvent event M)
    (hevent : event.managerCall = none) {c' : Client} (hsame : SameManager M.client c') :
    SameManager (SharedMemory.step event M).client c' := by
  have hmem : ∀ x ∈ managerBytes M.client.st, _ := fun x hx => h.mem_of_manager hok hevent hx
  cases event with
  | manager call => exact absurd hevent (Option.some_ne_none call)
  | terminal call => exact hsame.withMem hmem
  | store y b => exact hsame.withMem hmem

/-- Only the client itself changes a byte it owns. -/
lemma SharedInv.mem_of_owns (h : SharedInv M) (hok : PermittedEvent event M) {x : BitVec 32}
    (hx : M.client.Owns x) (hstore : ∀ b, event ≠ .store x b) :
    (SharedMemory.step event M).client.st.mem x = M.client.st.mem x := by
  cases event with
  | manager call => exact h.own.mem_step (h.ownerCall hok) hx
  | terminal call => exact h.mem_terminal_of_not_text call (h.off_of_owns hx).1
  | store y b =>
    refine Function.update_of_ne ?_ _ _
    rintro rfl
    exact hstore b rfl

end

/-- After `memory_init` two frames are in use. -/
lemma seesFewInUse_start {s : MemoryState}
    (hempty : ∀ d, d ≠ kernelDirectory → ∀ i, (s.dirs d).tables i = NULL) (call : Call) :
    SeesFewInUse textFrame call (Client.start (memoryInit.exec s)) := by
  intro _
  have hsetup := memoryInit_setUp s
  rw [← (hsetup.framesAccounted hempty).card_markedFrames]
  change (markedFrames (memoryInit.exec s)).card < textFrame
  rw [hsetup.marked, Finset.card_range, textFrame]
  norm_num

end VVBright
