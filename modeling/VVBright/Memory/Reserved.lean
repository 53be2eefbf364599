import VVBright.Memory.Init

/-!
# Memory in use

The frame allocator knows nothing of the bitmap's own storage, nor of the heap: `paging_init`
leaves only the frames 0 and 1 marked.  Whether a run keeps away from memory in use therefore
depends on how far its allocations advance.  As long as some frame below 1 MB is free, the least
free frame is below 1 MB; and a run that never takes a frame in use never marks frame 256, the first
frame of the bitmap, so that the least free frame is at most 256 at every allocation.
-/

namespace VVBright

open Traced

/-- The frame is in use without being marked: it overlaps the bitmap or the heap region. -/
def InUse (k : ℕ) : Prop :=
  OverlapsBitmap k ∨ FrameOverlaps k heapMemoryStart.toNat heapMemoryEnd.toNat

/-- The calls of a client that frees only frames it holds. -/
def ManagerCall : Call → Client → Prop
  | .freeFrame p, c => c.Holds p
  | _, _ => True

/-- The call asks the allocator for a frame: `alloc_frame`, or `map_page` without a page table. -/
def Allocates : Call → Client → Prop
  | .allocFrame, _ => True
  | .mapPage d virt _ _, c => (c.st.dirs d).tables (tableIndex virt) = NULL
  | _, _ => False

/-- Whatever frame the call takes is not in use. -/
def TakesUnused (call : Call) (c : Client) : Prop :=
  Allocates call c → ¬ Exhausted c.st → ¬ InUse (frameOf (allocFrame.eval c.st))

/-- When the call asks for a frame, some frame below 1 MB is free. -/
def SeesLowFrame (call : Call) (c : Client) : Prop :=
  Allocates call c → ∃ k < 256, k ∉ markedFrames c.st

/-- Frames below 1 MB are not in use. -/
lemma not_inUse {k : ℕ} (hk : k < 256) : ¬ InUse k := by
  rintro (hbitmap | ⟨x, rfl, hlo, -⟩)
  · exact not_overlapsBitmap hk hbitmap
  · change 0x200000 ≤ x at hlo
    omega

lemma inUse_bitmap : InUse 256 := Or.inl (overlapsBitmap_iff.mpr (Or.inl rfl))

section

variable {c : Client} {call : Call}

/-- The frame taken while some frame below 1 MB is free is below 1 MB. -/
lemma SeesLowFrame.takesUnused (h : BitmapReady c.st) (hlow : SeesLowFrame call c) :
    TakesUnused call c := by
  intro halloc hex
  obtain ⟨j, hj, hfree⟩ := hlow halloc
  obtain ⟨k, hk⟩ := exists_leastFree h hex
  have hlt : k < 256 := leastFree_lt hk hj hfree
  rw [frameOf_allocFrame_of_least h hk]
  exact not_inUse hlt

end

/-! ## Runs that take no frame in use -/

/-- What is known of a client that has taken no frame in use: everything it got, and every page
table, is below 1 MB, and the first frame of the bitmap is not marked. -/
structure LowInv (c : Client) : Prop where
  /-- The bitmap is where `paging_init` put it. -/
  ready : BitmapReady c.st
  /-- The first frame of the bitmap is not marked. -/
  free : 256 ∉ markedFrames c.st
  /-- Held frames are below 1 MB. -/
  held : ∀ q ∈ c.held, frameOf q < 256
  /-- Page tables are below 1 MB. -/
  tables : ∀ d i, ∃ f < 256, (c.st.dirs d).tables i = frameAddr f

section

variable {c : Client} {call : Call}

/-- The least free frame is at most the first frame of the bitmap, and is below it when it is not
in use. -/
lemma LowInv.least (h : LowInv c) (hunused : TakesUnused call c) (halloc : Allocates call c) :
    ¬ Exhausted c.st ∧ ∃ k < 256, leastFree frameCount (markedFrames c.st) = some k := by
  have hex : ¬ Exhausted c.st := by
    rw [exhausted_iff h.ready, leastFree_eq_none_iff]
    intro hfull
    exact h.free (hfull 256 (by norm_num [frameCount]))
  obtain ⟨k, hk⟩ := exists_leastFree h.ready hex
  have hle : k < 257 := leastFree_lt hk (Nat.lt_succ_self 256) h.free
  have hnot := hunused halloc hex
  rw [frameOf_allocFrame_of_least h.ready hk] at hnot
  have hne : k ≠ 256 := by
    rintro rfl
    exact hnot inUse_bitmap
  exact ⟨hex, k, by omega, hk⟩

/-- A call that takes no frame in use sees a free frame below 1 MB. -/
lemma LowInv.seesLowFrame (h : LowInv c) (hunused : TakesUnused call c) : SeesLowFrame call c := by
  intro halloc
  obtain ⟨-, k, hk, hleast⟩ := h.least hunused halloc
  exact ⟨k, hk, (leastFree_eq_some_iff.mp hleast).2.1⟩

lemma LowInv.allocFrame (h : LowInv c) (hunused : TakesUnused .allocFrame c) :
    LowInv (Client.step .allocFrame c) := by
  obtain ⟨hex, k, hk, hleast⟩ := h.least hunused trivial
  have hbit := allocFrame_bitmapOnly h.ready
  have hdirs : (VVBright.allocFrame.exec c.st).dirs = c.st.dirs := by rw [hbit.rest]
  refine ⟨ready_step h.ready .allocFrame, ?_, ?_, ?_⟩ <;> rw [Client.step_allocFrame hex]
  · change 256 ∉ markedFrames (VVBright.allocFrame.exec c.st)
    rw [markedFrames_allocFrame h.ready hleast, Finset.mem_insert, not_or]
    exact ⟨by omega, h.free⟩
  · intro q hq
    rcases List.mem_cons.mp hq with rfl | hq
    · rw [frameOf_allocFrame_of_least h.ready hleast]
      exact hk
    · exact h.held q hq
  · intro d i
    obtain ⟨f, hf, htable⟩ := h.tables d i
    exact ⟨f, hf, by rw [← htable, ← hdirs]⟩

lemma LowInv.mapPage (h : LowInv c) {d : DirPtr} {virt phys flags : BitVec 32}
    (hunused : TakesUnused (.mapPage d virt phys flags) c) :
    LowInv (Client.step (.mapPage d virt phys flags) c) := by
  have hready := ready_step h.ready (.mapPage d virt phys flags)
  obtain ⟨t, ht⟩ : ∃ t, t = (VVBright.mapPage d virt phys flags).exec c.st := ⟨_, rfl⟩
  rw [Client.step, ← ht] at hready ⊢
  by_cases hnull : (c.st.dirs d).tables (tableIndex virt) = NULL
  · obtain ⟨-, k, hk, hleast⟩ := h.least hunused hnull
    refine ⟨hready, ?_, h.held, ?_⟩
    · change 256 ∉ markedFrames t
      rw [mapPage_markedFrames_of_null ht h.ready hnull hleast (not_overlapsBitmap hk),
        Finset.mem_insert, not_or]
      exact ⟨by omega, h.free⟩
    · intro d' i'
      change ∃ f < 256, (t.dirs d').tables i' = frameAddr f
      rw [mapPage_tables_of_null ht h.ready hnull hleast]
      split
      · exact ⟨k, hk, rfl⟩
      · exact h.tables d' i'
  · obtain ⟨f, hf, htable⟩ := h.tables d (tableIndex virt)
    obtain ⟨hmarked, hdirs⟩ := mapPage_of_table ht h.ready htable (by rwa [← htable])
      (by rw [frameCount]; omega) (not_overlapsBitmap hf)
    refine ⟨hready, ?_, h.held, ?_⟩
    · change 256 ∉ markedFrames t
      rw [hmarked]
      exact h.free
    · change ∀ d' i', ∃ f < 256, (t.dirs d').tables i' = frameAddr f
      rw [hdirs]
      exact h.tables

/-- Every call that takes no frame in use keeps the invariant. -/
theorem LowInv.step (h : LowInv c) (hcall : ManagerCall call c) (hunused : TakesUnused call c) :
    LowInv (Client.step call c) := by
  have hready := ready_step h.ready call
  cases call with
  | allocFrame => exact h.allocFrame hunused
  | freeFrame p =>
    obtain ⟨q, hq, hqp⟩ := hcall
    have hlt := h.held q hq
    rw [hqp, frameOf] at hlt
    refine ⟨hready, ?_, fun q hq => h.held q (List.mem_of_mem_filter hq), h.tables⟩
    change 256 ∉ markedFrames ((freeFrame p).exec c.st)
    rw [markedFrames_freeFrame c.st (by omega)]
    exact fun hmem => h.free (Finset.mem_of_mem_erase hmem)
  | mapPage d virt phys flags => exact h.mapPage hunused
  | kmalloc size =>
    obtain ⟨pos, hpos⟩ := exists_exec_kmalloc size c.st
    rw [Client.step, hpos] at hready ⊢
    exact ⟨hready, h.free, h.held, h.tables⟩
  | kfree ptr => exact ⟨hready, h.free, h.held, h.tables⟩

end

/-! ## Runs after `memory_init` -/

/-- After `memory_init` the only page table is in frame 1. -/
lemma lowInv_memoryInit {s : MemoryState}
    (hempty : ∀ d, d ≠ kernelDirectory → ∀ i, (s.dirs d).tables i = NULL) :
    LowInv (Client.start (memoryInit.exec s)) := by
  have hsetup := memoryInit_setUp s
  generalize memoryInit.exec s = t at hsetup ⊢
  refine ⟨hsetup.ready, ?_, by simp [Client.start], ?_⟩
  · change 256 ∉ markedFrames t
    rw [hsetup.marked]
    decide
  · intro d i
    change ∃ f < 256, (t.dirs d).tables i = frameAddr f
    by_cases hd : d = kernelDirectory
    · subst hd
      by_cases hi : i = 0
      · subst hi
        exact ⟨1, by norm_num, hsetup.table⟩
      · exact ⟨0, by norm_num, hsetup.tables_eq i hi⟩
    · exact ⟨0, by norm_num, by rw [hsetup.others d hd]; exact hempty d hd i⟩

/-- **When memory in use is handed out.**  In a run after `memory_init` in which every call that
asks for a frame is made while some frame below 1 MB is free, no frame taken by `alloc_frame` or
`map_page` overlaps the bitmap or the heap region.  For clients that free only what they hold and
whose own directories start out empty, these are the only such runs. -/
theorem takesUnused_iff_seesLowFrame (s : MemoryState) (calls : List Call) :
    let c := Client.start (memoryInit.exec s)
    (Along Client.step SeesLowFrame calls c → Along Client.step TakesUnused calls c) ∧
    ((∀ d, d ≠ kernelDirectory → ∀ i, (s.dirs d).tables i = NULL) →
      Along Client.step ManagerCall calls c →
      (Along Client.step TakesUnused calls c ↔ Along Client.step SeesLowFrame calls c)) := by
  intro c
  have hlow : Along Client.step SeesLowFrame calls c → Along Client.step TakesUnused calls c := by
    intro hrun
    have hready : BitmapReady c.st := (memoryInit_setUp s).ready
    exact hrun.imp hready (fun call t ht _ => ready_step ht call)
      (fun call t ht hok => hok.takesUnused ht)
  refine ⟨hlow, fun hempty hcalls => ⟨fun hrun => ?_, hlow⟩⟩
  exact (hcalls.and hrun).imp (lowInv_memoryInit hempty)
    (fun call t ht hok => ht.step hok.1 hok.2) (fun call t ht hok => ht.seesLowFrame hok.2)

/-- Allocations fill the bitmap from below. -/
lemma run_allocFrames {c c' : Client} {m n : ℕ} (h : BitmapReady c.st)
    (hmarked : markedFrames c.st = Finset.range m) (hle : m + n ≤ frameCount)
    (hc' : c' = runActions Client.step (List.replicate n .allocFrame) c) :
    Along Client.step (fun call c => call = .allocFrame ∧ ¬ Exhausted c.st)
        (List.replicate n .allocFrame) c ∧
      BitmapReady c'.st ∧ markedFrames c'.st = Finset.range (m + n) ∧ BitmapOnly c.st c'.st := by
  induction n generalizing c m with
  | zero =>
    rw [List.replicate_zero, runActions] at hc'
    rw [hc']
    exact ⟨trivial, h, hmarked, BitmapOnly.refl _⟩
  | succ n ih =>
    rw [List.replicate_succ, runActions] at hc'
    obtain ⟨hex, -, hnext, hbit⟩ := step_allocFrame_range h hmarked (by omega)
    obtain ⟨halong, hready, hmarked', hbit'⟩ :=
      ih (ready_step h .allocFrame) hnext (by omega) hc'
    exact ⟨⟨⟨rfl, hex⟩, halong⟩, hready, by rw [hmarked', Nat.add_assoc, Nat.add_comm 1 n],
      hbit.trans hbit'⟩

/-- The first calls of a client after `paging_init`: it takes frame 2, maps a page above 4 MB, for
which frame 3 becomes a page table, and gives frame 2 back. -/
structure FirstCalls (s : MemoryState) (c₁ c₂ c₃ : Client) : Prop where
  take : c₁ = Client.step .allocFrame (Client.start s)
  map : c₂ = Client.step (.mapPage kernelDirectory 0x400000#32 0x5000#32 0x07#32) c₁
  give : c₃ = Client.step (.freeFrame 0x2000#32) c₂
  room : ¬ Exhausted s
  holds : c₂.Holds 0x2000#32
  ready : BitmapReady c₁.st ∧ BitmapReady c₃.st
  least₁ : leastFree frameCount (markedFrames c₁.st) = some 3
  least₃ : leastFree frameCount (markedFrames c₃.st) = some 2

lemma PagingSetUp.firstCalls {s₀ s : MemoryState} (h : PagingSetUp 1024 s₀ s) :
    ∃ c₁ c₂ c₃, FirstCalls s c₁ c₂ c₃ := by
  obtain ⟨hex, heval, hmarked₁, hbit₁⟩ := step_allocFrame_range (c := Client.start s) h.ready
    h.marked (by norm_num [frameCount])
  obtain ⟨c₁, hc₁⟩ : ∃ c₁, c₁ = Client.step .allocFrame (Client.start s) := ⟨_, rfl⟩
  have hheld : c₁.held = [frameAddr 2] := by
    rw [hc₁, Client.step_allocFrame hex, heval]
    rfl
  rw [← hc₁] at hmarked₁ hbit₁
  have hready₁ := hbit₁.ready h.ready
  have hleast₁ : leastFree frameCount (markedFrames c₁.st) = some 3 := by
    rw [hmarked₁]
    exact leastFree_range (by norm_num [frameCount])
  obtain ⟨c₂, hc₂⟩ : ∃ c₂, c₂ = Client.step
      (.mapPage kernelDirectory 0x400000#32 0x5000#32 0x07#32) c₁ := ⟨_, rfl⟩
  have ht : c₂.st = (mapPage kernelDirectory 0x400000#32 0x5000#32 0x07#32).exec c₁.st := by
    rw [hc₂]
    rfl
  have hnull : (c₁.st.dirs kernelDirectory).tables (tableIndex 0x400000#32) = NULL := by
    rw [hbit₁.rest]
    exact h.tables_eq _ (by decide)
  have hmarked₂ := mapPage_markedFrames_of_null ht hready₁ hnull hleast₁
    (not_overlapsBitmap (by norm_num))
  have hholds : c₂.Holds 0x2000#32 := by
    refine ⟨frameAddr 2, ?_, rfl⟩
    rw [hc₂]
    change frameAddr 2 ∈ c₁.held
    rw [hheld]
    exact List.mem_singleton_self _
  obtain ⟨c₃, hc₃⟩ : ∃ c₃, c₃ = Client.step (.freeFrame 0x2000#32) c₂ := ⟨_, rfl⟩
  have hready₃ := ready_step (mapPage_ready ht hready₁) (.freeFrame 0x2000#32)
  rw [← hc₃] at hready₃
  have hleast₃ : leastFree frameCount (markedFrames c₃.st) = some 2 := by
    rw [hc₃]
    change leastFree frameCount (markedFrames ((freeFrame 0x2000#32).exec c₂.st)) = some 2
    rw [markedFrames_freeFrame c₂.st (by norm_num), hmarked₂, hmarked₁, leastFree_eq_some_iff]
    exact ⟨by norm_num [frameCount], by decide, by decide⟩
  exact ⟨c₁, c₂, c₃, hc₁, hc₂, hc₃, hex, hholds, ⟨hready₁, hready₃⟩, hleast₁, hleast₃⟩

/-- After `memory_init` and 254 allocations the next `alloc_frame` returns the address of the
bitmap. -/
theorem bitmap_handedOut_after_allocFrames :
    ∃ c, c = runActions Client.step (List.replicate 254 .allocFrame)
        (Client.start (memoryInit.exec blankState)) ∧
      allocFrame.eval c.st = 0x100000#32 ∧ ¬ TakesUnused .allocFrame c := by
  have hsetup := memoryInit_setUp blankState
  generalize memoryInit.exec blankState = s at hsetup ⊢
  obtain ⟨c, hc⟩ : ∃ c, c = runActions Client.step (List.replicate 254 .allocFrame)
    (Client.start s) := ⟨_, rfl⟩
  obtain ⟨-, hready, hmarked, -⟩ := run_allocFrames (c := Client.start s) hsetup.ready
    hsetup.marked (by norm_num [frameCount]) hc
  obtain ⟨hex, heval, -, -⟩ := step_allocFrame_range hready hmarked (by norm_num [frameCount])
  refine ⟨c, hc, heval, fun hunused => ?_⟩
  have hnot := hunused trivial hex
  rw [heval, frameOf_frameAddr (by norm_num [frameCount])] at hnot
  exact hnot inUse_bitmap

end VVBright
