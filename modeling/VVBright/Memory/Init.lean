import VVBright.Memory.Translation

/-!
# Initialisation of the memory manager

`paging_init` and `memory_init` of `memory.c`, and the state they leave.

The loop that identity-maps the first 4 MB takes its page table from the bitmap it has just cleared.
The first frame it gets is frame 0, whose address is the null pointer, so the second round finds the
slot still empty and takes frame 1; from then on the table exists.  `PagingSetUp` records the
outcome: the table is in frame 1, its entries from 1 on are mapped, entry 0 is not, and the frames 0
and 1 are marked.
-/

namespace VVBright

open Traced

/-- The assignments to the slot `i` of the loop of `paging_init` that creates the directory. -/
def clearSlot (i : Fin 1024) (s : MemoryState) : MemoryState :=
  { s with
    dirs := Function.update s.dirs kernelDirectory
      { tables := Function.update (s.dirs kernelDirectory).tables i NULL
        tablesPhysical := Function.update (s.dirs kernelDirectory).tablesPhysical i 0#32
        refcount := Function.update (s.dirs kernelDirectory).refcount i 0#16 } }

/-- The loop of `paging_init` that clears the bitmap. -/
def clearBitmap : MemM Unit := do
  let nFrames ← gets MemoryState.nFrames
  forLoop (indexFromBit nFrames.toNat) fun i => writeFrames i 0#32

/-- The loop of `paging_init` that creates the directory. -/
def clearDirectory : MemM Unit := forLoop 1024 fun i => modify (clearSlot (Fin.ofNat 1024 i))

/-- The body of the loop of `paging_init` that maps the first 4 MB. -/
def identityMap (i : ℕ) : MemM Unit := do
  let frame := BitVec.ofNat 32 (i * pageSize)
  mapPage kernelDirectory frame frame 0x03#32

/-- `paging_init`. -/
def pagingInit : MemM Unit := do
  let memEndPage := 0x10000000#32
  modify fun s => { s with nFrames := memEndPage / 4096#32 }
  modify fun s => { s with frames := 0x100000#32 }
  clearBitmap
  clearDirectory
  forLoop 1024 identityMap
  modify fun s => { s with currentDirectory := some kernelDirectory }
  switchDirectory kernelDirectory
  modify fun s => { s with cr0 := s.cr0 ||| 0x80000000#32 }

/-- `memory_init`. -/
def memoryInit : MemM Unit := do
  writestring "Initializing memory management...\n"
  pagingInit
  writestring "Paging enabled\n"
  heapInit
  writestring "Heap initialized\n"
  writestring "Memory management ready\n"

/-! ## The cleared bitmap and directory -/

/-- The words of the bitmap the clearing loop has passed are zero; no word off the bitmap and no
other variable changes. -/
lemma clearBitmap_loop {s : MemoryState} {n : ℕ} (hn : n ≤ 2048) :
    BitmapOnly s ((forLoop n fun i => writeFrames i 0#32).exec s) ∧
      ∀ i < n, frameWord ((forLoop n fun i => writeFrames i 0#32).exec s) i = 0#32 := by
  induction n with
  | zero => exact ⟨BitmapOnly.refl s, by simp⟩
  | succ n ih =>
    obtain ⟨hbit, hzero⟩ := ih (by omega)
    set t := (forLoop n fun i => writeFrames i 0#32).exec s with ht
    have hexec : (forLoop (n + 1) fun i => writeFrames i 0#32).exec s =
        storeFrameWord t n 0#32 := by
      rw [exec_forLoop_succ, ← ht]
      rfl
    rw [hexec]
    refine ⟨hbit.trans (storeFrameWord_bitmapOnly t 0#32 (by omega)), ?_⟩
    · intro i hi
      rw [frameWord_storeFrameWord t 0#32 (by omega) (by omega)]
      split
      · rfl
      · exact hzero i (by omega)

/-- After the clearing loop no frame is marked. -/
lemma clearBitmap_spec {s : MemoryState} (hs : BitmapReady s) :
    BitmapOnly s (clearBitmap.exec s) ∧ markedFrames (clearBitmap.exec s) = ∅ := by
  have hwords : indexFromBit s.nFrames.toNat = 2048 := by rw [hs.nFrames_eq]; rfl
  have hexec : clearBitmap.exec s = (forLoop 2048 fun i => writeFrames i 0#32).exec s := by
    rw [clearBitmap, exec_bind, eval_gets, exec_gets, hwords]
  rw [hexec]
  obtain ⟨hbit, hzero⟩ := clearBitmap_loop (s := s) (n := 2048) le_rfl
  refine ⟨hbit, ?_⟩
  ext k
  have hnot : k ∉ (∅ : Finset ℕ) := Finset.notMem_empty k
  rw [mem_markedFrames]
  refine ⟨fun ⟨hk, hset⟩ => ?_, fun h => absurd h hnot⟩
  have hk' : k < 65536 := hk
  rw [frameBit, hzero (k / 32) (by omega)] at hset
  simp at hset

/-- The slots the loop has passed are empty; memory, the other directories and the other variables
do not change. -/
lemma clearDirectory_loop {s t : MemoryState} {n : ℕ} (hn : n ≤ 1024)
    (ht : t = (forLoop n fun i => modify (clearSlot (Fin.ofNat 1024 i)) : MemM Unit).exec s) :
    t = { s with dirs := t.dirs } ∧ (∀ d, d ≠ kernelDirectory → t.dirs d = s.dirs d) ∧
      ∀ i : Fin 1024, i.val < n → (t.dirs kernelDirectory).tables i = NULL ∧
        (t.dirs kernelDirectory).tablesPhysical i = 0#32 := by
  induction n generalizing t with
  | zero =>
    rw [exec_forLoop_zero] at ht
    rw [ht]
    exact ⟨rfl, fun _ _ => rfl, fun _ h => absurd h (Nat.not_lt_zero _)⟩
  | succ n ih =>
    rw [exec_forLoop_succ, exec_modify] at ht
    obtain ⟨hrest, hothers, hslots⟩ := ih (by omega) rfl
    set u := (forLoop n fun i => modify (clearSlot (Fin.ofNat 1024 i)) : MemM Unit).exec s with hu
    refine ⟨?_, ?_, ?_⟩
    · rw [ht, hrest]
      rfl
    · intro d hd
      rw [← hothers d hd, ht]
      simp [clearSlot, hd]
    · intro i hi
      by_cases hin : i = Fin.ofNat 1024 n
      · rw [ht, hin]
        simp [clearSlot]
      · have hlt : i.val < n := by
          rcases Nat.lt_succ_iff_lt_or_eq.mp hi with h | h
          · exact h
          · exact absurd (Fin.ext (by simp [h, Nat.mod_eq_of_lt (show n < 1024 by omega)])) hin
        have hold := hslots i hlt
        simp only [ht, clearSlot, Function.update_self, Function.update_of_ne hin]
        exact hold

/-! ## The identity mapping -/

/-- The state `t` after `paging_init`, started from `s`, has mapped the pages below `n`: the kernel
directory has one table, in frame 1, whose entries `1, …, n - 1` are mapped. -/
structure PagingSetUp (n : ℕ) (s t : MemoryState) : Prop where
  /-- The bitmap is at 1 MB and has 65536 bits. -/
  ready : BitmapReady t
  /-- The frames 0 and 1 are marked. -/
  marked : markedFrames t = Finset.range 2
  /-- The table of the first 4 MB is in frame 1. -/
  table : (t.dirs kernelDirectory).tables 0 = frameAddr 1
  /-- The directory word of the first 4 MB. -/
  word : (t.dirs kernelDirectory).tablesPhysical 0 = 0x1003#32
  /-- There is no other table. -/
  tables_eq : ∀ i, i ≠ 0 → (t.dirs kernelDirectory).tables i = NULL
  /-- The other directory words are zero. -/
  words_eq : ∀ i, i ≠ 0 → (t.dirs kernelDirectory).tablesPhysical i = 0#32
  /-- The pages from 1 to `n` are mapped to themselves. -/
  mapped : ∀ e, 1 ≤ e → e < n →
    load32 t.mem (entryAddr 1 e) = filledEntry (frameAddr e) 0x03#32 clearedEntry
  /-- The other pages of the table are not mapped. -/
  unmapped : ∀ e < 1024, e = 0 ∨ n ≤ e → load32 t.mem (entryAddr 1 e) = clearedEntry
  /-- The other directories are the same. -/
  others : ∀ d, d ≠ kernelDirectory → t.dirs d = s.dirs d
  /-- The directories stay where they are. -/
  dirAddr : t.dirAddr = s.dirAddr

/-- Frame 2 is the next to be taken. -/
lemma PagingSetUp.least {n : ℕ} {s t : MemoryState} (h : PagingSetUp n s t) :
    leastFree frameCount (markedFrames t) = some 2 := by
  rw [h.marked]
  exact leastFree_range (by norm_num [frameCount])

lemma tableIndex_frameAddr {i : ℕ} (hi : i < 1024) : tableIndex (frameAddr i) = 0 := by
  rw [tableIndex_eq_zero_iff, toNat_frameAddr (by rw [frameCount]; omega)]
  omega

lemma entryIndex_frameAddr {i : ℕ} (hi : i < 1024) : entryIndex (frameAddr i) = i := by
  have haddr := toNat_frameAddr (show i < frameCount by rw [frameCount]; omega)
  rw [entryIndex_of_lt (by omega), haddr, Nat.mul_div_cancel_left _ (by norm_num)]

lemma identityMap_eq (i : ℕ) :
    identityMap i = mapPage kernelDirectory (frameAddr i) (frameAddr i) 0x03#32 := by
  rw [identityMap, pageSize, frameAddr, Nat.mul_comm]

/-- A frame from 0 to 255 does not overlap the bitmap. -/
lemma not_overlapsBitmap {f : ℕ} (hf : f < 256) : ¬ OverlapsBitmap f := by
  rw [overlapsBitmap_iff]
  omega

/-- One round of the identity mapping while the slot is empty and the least free frame is `k`. -/
lemma identityMap_of_null {s : MemoryState} (hs : BitmapReady s) {i k : ℕ} (hi : i < 1024)
    (hnull : (s.dirs kernelDirectory).tables 0 = NULL)
    (hleast : leastFree frameCount (markedFrames s) = some k) (hk : k < 256)
    {t : MemoryState} (ht : t = (identityMap i).exec s) :
    (∀ d j, (t.dirs d).tables j =
      if d = kernelDirectory ∧ j = 0 then frameAddr k else (s.dirs d).tables j) ∧
      (∀ d j, (t.dirs d).tablesPhysical j =
        if d = kernelDirectory ∧ j = 0 then frameAddr k ||| 0x03#32 ||| 0x01#32
        else (s.dirs d).tablesPhysical j) ∧
      BitmapReady t ∧ markedFrames t = insert k (markedFrames s) ∧
      load32 t.mem (entryAddr k i) = filledEntry (frameAddr i) 0x03#32 clearedEntry ∧
      ∀ e < 1024, e ≠ i → load32 t.mem (entryAddr k e) = clearedEntry := by
  have hkc : k < frameCount := by rw [frameCount]; omega
  have hoff := not_overlapsBitmap hk
  have hbit := allocFrame_bitmapOnly hs
  have hready := hbit.ready hs
  set u := newTableState kernelDirectory 0 (frameAddr k) 0x03#32 (allocFrame.exec s) with hu
  have hexec : t = fillState (entryAddr k i) (frameAddr i) 0x03#32 u := by
    have hindex := tableIndex_frameAddr hi
    rw [ht, identityMap_eq, exec_mapPage_of_null _ _ (by rw [hindex]; exact hnull), hindex,
      entryIndex_frameAddr hi, (allocFrame_of_least hs hleast).1, ← entryAddr]
  have hmem : u.mem = clearTableMem (frameAddr k) (allocFrame.exec s).mem 1024 :=
    mem_newTableState _ _ _ _ _
  have hcleared : ∀ e < 1024, load32 u.mem (entryAddr k e) = clearedEntry := by
    intro e he
    rw [hmem, entryAddr, load32_clearTableMem _ _ le_rfl he]
  have huready : BitmapReady u := hready.newTableState _ _ _ _
  refine ⟨?_, ?_, ?_, ?_, ?_, ?_⟩
  · intro d j
    rw [hexec, dirs_fillState, hu, tables_newTableState, dirs_allocFrame]
  · intro d j
    rw [hexec, dirs_fillState, hu, tablesPhysical_newTableState, dirs_allocFrame]
  · rw [hexec]
    exact huready.fillState _ _ _
  · rw [hexec, markedFrames_fillState huready hkc hoff hi, hu,
      markedFrames_newTableState hready kernelDirectory 0 _ hkc hoff,
      markedFrames_allocFrame hs hleast]
  · rw [hexec, mem_fillState, load32_store32_same, hcleared i hi]
  · intro e he hne
    rw [hexec, mem_fillState,
      load32_store32_of_apart _ _ (entryAddr_apart hkc hi hkc he (Or.inr (Ne.symm hne))),
      hcleared e he]

/-- The first round takes frame 0, whose address is the null pointer: the slot is still empty
afterwards, and frame 1 is the next one. -/
lemma identityMap_zero {s u : MemoryState} (hs : BitmapReady s) (hmarked : markedFrames s = ∅)
    (hslots : ∀ i, (s.dirs kernelDirectory).tables i = NULL ∧
      (s.dirs kernelDirectory).tablesPhysical i = 0#32)
    (hu : u = (identityMap 0).exec s) :
    BitmapReady u ∧ markedFrames u = {0} ∧ leastFree frameCount (markedFrames u) = some 1 ∧
      (∀ d i, (u.dirs d).tables i = (s.dirs d).tables i) ∧
      ∀ i, i ≠ 0 → (u.dirs kernelDirectory).tablesPhysical i = 0#32 := by
  have hleast : leastFree frameCount (markedFrames s) = some 0 := by
    rw [hmarked, ← Finset.range_zero]
    exact leastFree_range (by norm_num [frameCount])
  obtain ⟨htab, hphys, hready, hmarked', -, -⟩ := identityMap_of_null hs (i := 0) (by norm_num)
    (hslots 0).1 hleast (by norm_num) hu
  rw [hmarked] at hmarked'
  refine ⟨hready, hmarked', ?_, ?_, ?_⟩
  · rw [hmarked', insert_empty_eq, ← Finset.range_one]
    exact leastFree_range (by norm_num [frameCount])
  · intro d i
    rw [htab]
    split
    · rename_i h
      rw [h.1, h.2, (hslots 0).1]
      rfl
    · rfl
  · intro i hi
    rw [hphys, if_neg fun h => hi h.2]
    exact (hslots i).2

/-- The identity mapping changes neither the other directories nor the place of any. -/
lemma identityMap_loop_rest {s t : MemoryState} (hs : BitmapReady s) {n : ℕ}
    (ht : t = (forLoop n identityMap).exec s) :
    (∀ d, d ≠ kernelDirectory → t.dirs d = s.dirs d) ∧ t.dirAddr = s.dirAddr := by
  have hloop : BitmapReady t ∧ (∀ d, d ≠ kernelDirectory → t.dirs d = s.dirs d) ∧
      t.dirAddr = s.dirAddr := by
    rw [ht]
    refine forLoop_invariant (fun _ u => BitmapReady u ∧
      (∀ d, d ≠ kernelDirectory → u.dirs d = s.dirs d) ∧ u.dirAddr = s.dirAddr)
      ⟨hs, fun _ _ => rfl, rfl⟩ fun i _ u hu => ?_
    obtain ⟨hready, hothers, haddr⟩ := hu
    rw [identityMap_eq]
    refine ⟨mapPage_ready rfl hready, fun d hd => ?_, ?_⟩
    · rw [dirs_mapPage_of_ne _ _ hd, hothers d hd]
    · rw [mapPage_rest rfl hready]
      exact haddr
  exact hloop.2

/-- The first two rounds: the table of the first round is at the null pointer, so the second round
takes another one. -/
lemma pagingSetUp_two {s t : MemoryState} (hs : BitmapReady s) (hmarked : markedFrames s = ∅)
    (hslots : ∀ i, (s.dirs kernelDirectory).tables i = NULL ∧
      (s.dirs kernelDirectory).tablesPhysical i = 0#32)
    (ht : t = (forLoop 2 identityMap).exec s) : PagingSetUp 2 s t := by
  obtain ⟨hothers, haddr⟩ := identityMap_loop_rest hs ht
  obtain ⟨u, hu⟩ : ∃ u, u = (identityMap 0).exec s := ⟨_, rfl⟩
  have htu : t = (identityMap 1).exec u := by
    rw [ht, exec_forLoop_succ, exec_forLoop_succ, exec_forLoop_zero, hu]
  obtain ⟨hready₀, hmarked₀, hleast₁, htab₀, hphys₀⟩ := identityMap_zero hs hmarked hslots hu
  have hnull₁ : (u.dirs kernelDirectory).tables 0 = NULL := by rw [htab₀, (hslots 0).1]
  obtain ⟨htab, hphys, hready, hmarked₁, hfilled, hcleared⟩ := identityMap_of_null hready₀ (i := 1)
    (by norm_num) hnull₁ hleast₁ (by norm_num) htu
  refine ⟨hready, ?_, ?_, ?_, ?_, ?_, ?_, ?_, hothers, haddr⟩
  · rw [hmarked₁, hmarked₀]
    decide
  · rw [htab, if_pos ⟨rfl, rfl⟩]
  · rw [hphys, if_pos ⟨rfl, rfl⟩]
    rfl
  · intro i hi
    rw [htab, if_neg (by simp [hi]), htab₀]
    exact (hslots i).1
  · intro i hi
    rw [hphys, if_neg (by simp [hi]), hphys₀ i hi]
  · intro e h1 h2
    rw [show e = 1 by omega]
    exact hfilled
  · intro e he hor
    exact hcleared e he (by omega)

/-- A later round maps one more page. -/
lemma PagingSetUp.identityMap {n : ℕ} {s t : MemoryState} (h : PagingSetUp n s t) (hn : 2 ≤ n)
    (hlt : n < 1024) : PagingSetUp (n + 1) s ((identityMap n).exec t) := by
  have hone : 1 < frameCount := by norm_num [frameCount]
  have hexec : (VVBright.identityMap n).exec t =
      fillState (entryAddr 1 n) (frameAddr n) 0x03#32 t := by
    have htable : (t.dirs kernelDirectory).tables (tableIndex (frameAddr n)) = frameAddr 1 := by
      rw [tableIndex_frameAddr hlt, h.table]
    rw [identityMap_eq, exec_mapPage_of_table _ _ htable (frameAddr_ne_null hone (by norm_num)),
      entryIndex_frameAddr hlt, ← entryAddr]
  have hentry : ∀ e < 1024, load32 ((VVBright.identityMap n).exec t).mem (entryAddr 1 e) =
      if e = n then filledEntry (frameAddr n) 0x03#32 clearedEntry
      else load32 t.mem (entryAddr 1 e) := by
    intro e he
    rw [hexec, mem_fillState, h.unmapped n hlt (Or.inr le_rfl)]
    split
    · rename_i heq
      rw [heq, load32_store32_same]
    · rename_i hne
      rw [load32_store32_of_apart _ _
        (entryAddr_apart hone hlt hone he (Or.inr (Ne.symm hne)))]
  refine ⟨?_, ?_, ?_, ?_, ?_, ?_, ?_, ?_, ?_, ?_⟩
  · rw [hexec]
    exact h.ready.fillState _ _ _
  · rw [hexec, markedFrames_fillState h.ready hone (not_overlapsBitmap (by norm_num)) hlt]
    exact h.marked
  · rw [hexec, dirs_fillState]; exact h.table
  · rw [hexec, dirs_fillState]; exact h.word
  · rw [hexec, dirs_fillState]; exact h.tables_eq
  · rw [hexec, dirs_fillState]; exact h.words_eq
  · intro e h1 h2
    rw [hentry e (by omega)]
    split
    · rename_i heq
      rw [heq]
    · exact h.mapped e h1 (by omega)
  · intro e he hor
    rw [hentry e he, if_neg (by omega)]
    exact h.unmapped e he (by omega)
  · rw [hexec, dirs_fillState]; exact h.others
  · rw [hexec]; exact h.dirAddr

/-- The state `t` of `paging_init`, started from `s`, before it maps anything. -/
structure PagingCleared (s t : MemoryState) : Prop where
  /-- The bitmap is at 1 MB and has 65536 bits. -/
  ready : BitmapReady t
  /-- No frame is marked. -/
  unmarked : markedFrames t = ∅
  /-- The slots of the kernel directory are empty. -/
  slots : ∀ i, (t.dirs kernelDirectory).tables i = NULL ∧
    (t.dirs kernelDirectory).tablesPhysical i = 0#32
  /-- The other directories are the same. -/
  others : ∀ d, d ≠ kernelDirectory → t.dirs d = s.dirs d
  /-- The directories stay where they are. -/
  dirAddr : t.dirAddr = s.dirAddr
  /-- Words off the bitmap are the same. -/
  off : ∀ a, OffBitmap t a → load32 t.mem a = load32 s.mem a

/-- The last part of `paging_init`: load the kernel directory and enable paging. -/
def pagingEnabled (s : MemoryState) : MemoryState :=
  { s with
    currentDirectory := some kernelDirectory
    cr3 := some ⟨s.tablesPhysicalAddr kernelDirectory, kernelDirectory⟩
    cr0 := s.cr0 ||| 0x80000000#32 }

/-- `paging_init` clears the bitmap and the directory, maps 1024 pages, and enables paging. -/
theorem pagingInit_stages (s : MemoryState) :
    ∃ u t, PagingCleared s u ∧ t = (forLoop 1024 identityMap).exec u ∧
      pagingInit.exec s = pagingEnabled t := by
  obtain ⟨s₁, hs₁⟩ : ∃ s₁ : MemoryState,
      s₁ = { s with nFrames := 0x10000000#32 / 4096#32, frames := 0x100000#32 } := ⟨_, rfl⟩
  have hready₁ : BitmapReady s₁ := by
    rw [hs₁]
    exact ⟨rfl, rfl⟩
  obtain ⟨hbit, hmarked₂⟩ := clearBitmap_spec hready₁
  obtain ⟨s₂, hs₂⟩ : ∃ s₂, s₂ = clearBitmap.exec s₁ := ⟨_, rfl⟩
  rw [← hs₂] at hbit hmarked₂
  obtain ⟨s₃, hs₃⟩ : ∃ s₃, s₃ = clearDirectory.exec s₂ := ⟨_, rfl⟩
  obtain ⟨hrest₃, hothers₃, hslots₃⟩ := clearDirectory_loop (s := s₂) (t := s₃) le_rfl
    (by rw [hs₃, clearDirectory])
  have hready₂ := hbit.ready hready₁
  have hframes : s₃.frames = s₁.frames := by rw [hrest₃, hready₁.frames_eq, hready₂.frames_eq]
  obtain ⟨s₄, hs₄⟩ : ∃ s₄, s₄ = (forLoop 1024 identityMap).exec s₃ := ⟨_, rfl⟩
  refine ⟨s₃, s₄, ⟨?_, ?_, fun i => hslots₃ i i.isLt, ?_, ?_, ?_⟩, hs₄, ?_⟩
  · rw [hrest₃]
    exact ⟨hready₂.frames_eq, hready₂.nFrames_eq⟩
  · rw [hrest₃, ← hmarked₂]
    rfl
  · intro d hd
    have h21 : s₂.dirs = s₁.dirs := by rw [hbit.rest]
    rw [hothers₃ d hd, h21, hs₁]
  · rw [hrest₃]
    have h21 : s₂.dirAddr = s₁.dirAddr := by rw [hbit.rest]
    exact h21.trans (by rw [hs₁])
  · intro a ha
    have h32 : s₃.mem = s₂.mem := by rw [hrest₃]
    rw [h32, hbit.off a (by rwa [OffBitmap, ← hframes]), hs₁]
  · rw [pagingInit, exec_bind, exec_modify, exec_bind, exec_modify, exec_bind, exec_bind,
      exec_bind, exec_bind, exec_modify, exec_bind, exec_switchDirectory, exec_modify, ← hs₁,
      ← hs₂, ← hs₃, ← hs₄, pagingEnabled, MemoryState.tablesPhysicalAddr,
      MemoryState.tablesPhysicalAddr]

/-- The identity mapping after its first `n` rounds, two or more. -/
lemma PagingCleared.setUp {s u t : MemoryState} (h : PagingCleared s u) {n : ℕ} (hn : 2 ≤ n)
    (hn' : n ≤ 1024) (ht : t = (forLoop n identityMap).exec u) : PagingSetUp n u t := by
  obtain ⟨k, rfl⟩ := Nat.exists_eq_add_of_le hn
  rw [ht, exec_forLoop_add]
  exact forLoop_invariant (fun n t => PagingSetUp (2 + n) u t)
    (pagingSetUp_two h.ready h.unmarked h.slots rfl) fun i hi t ht =>
      ht.identityMap (by omega) (by omega)

/-- `paging_init` maps the first 4 MB to themselves, except for the first page, loads the kernel
directory and enables paging. -/
theorem pagingInit_spec (s : MemoryState) :
    PagingSetUp 1024 s (pagingInit.exec s) ∧
      (pagingInit.exec s).currentDirectory = some kernelDirectory ∧
      Loaded (pagingInit.exec s) kernelDirectory ∧ PagingOn (pagingInit.exec s) := by
  obtain ⟨u, t, hcleared, ht, hexec⟩ := pagingInit_stages s
  have hsetup := hcleared.setUp (by norm_num) le_rfl ht
  rw [hexec]
  refine ⟨⟨?_, hsetup.marked, hsetup.table, hsetup.word, hsetup.tables_eq, hsetup.words_eq,
    hsetup.mapped, hsetup.unmapped, ?_, ?_⟩, rfl, rfl, ?_⟩
  · exact ⟨hsetup.ready.frames_eq, hsetup.ready.nFrames_eq⟩
  · intro d hd
    rw [← hcleared.others d hd]
    exact hsetup.others d hd
  · exact hsetup.dirAddr.trans hcleared.dirAddr
  · rw [PagingOn, pagingEnabled, BitVec.getLsbD_or, Bool.or_eq_true]
    exact Or.inr rfl

/-- What `paging_init` has set up does not depend on the variables of the heap and on what has been
printed. -/
lemma PagingSetUp.congr {n : ℕ} {s t u : MemoryState} (h : PagingSetUp n s t) (hmem : u.mem = t.mem)
    (hdirs : u.dirs = t.dirs) (haddr : u.dirAddr = t.dirAddr) (hframes : u.frames = t.frames)
    (hnFrames : u.nFrames = t.nFrames) : PagingSetUp n s u := by
  have hmarked : markedFrames u = markedFrames t := by
    refine markedFrames_congr fun k hk => ?_
    rw [frameWord, frameWord, hmem, hframes]
  refine ⟨⟨hframes.trans h.ready.frames_eq, hnFrames.trans h.ready.nFrames_eq⟩,
    hmarked.trans h.marked, ?_, ?_, ?_, ?_, ?_, ?_, ?_, haddr.trans h.dirAddr⟩
  · rw [hdirs]; exact h.table
  · rw [hdirs]; exact h.word
  · rw [hdirs]; exact h.tables_eq
  · rw [hdirs]; exact h.words_eq
  · rw [hmem]; exact h.mapped
  · rw [hmem]; exact h.unmapped
  · rw [hdirs]; exact h.others

/-- `memory_init` is `paging_init`, started with the first message printed, and what it does
afterwards to the heap and the screen. -/
lemma exec_memoryInit (s : MemoryState) :
    ∃ t, t = pagingInit.exec { s with
        printed := s.printed ++ ["Initializing memory management...\n"] } ∧
      memoryInit.exec s = { t with
        heapStart := heapMemoryStart
        heapEnd := heapMemoryEnd
        heapPosition := heapMemoryStart
        printed := t.printed ++ ["Paging enabled\n"] ++ ["Heap initialized\n"] ++
          ["Memory management ready\n"] } := by
  obtain ⟨t, ht⟩ : ∃ t, t = pagingInit.exec { s with
      printed := s.printed ++ ["Initializing memory management...\n"] } := ⟨_, rfl⟩
  refine ⟨t, ht, ?_⟩
  rw [memoryInit, exec_bind, exec_writestring, exec_bind, ← ht, exec_bind, exec_writestring,
    exec_bind, exec_heapInit, exec_bind, exec_writestring, exec_writestring]

lemma memoryInit_setUp (s : MemoryState) : PagingSetUp 1024 s (memoryInit.exec s) := by
  obtain ⟨t, ht, hexec⟩ := exec_memoryInit s
  obtain ⟨hsetup, -⟩ := pagingInit_spec
    { s with printed := s.printed ++ ["Initializing memory management...\n"] }
  rw [← ht] at hsetup
  rw [hexec]
  have hstart : PagingSetUp 1024 s t :=
    ⟨hsetup.ready, hsetup.marked, hsetup.table, hsetup.word, hsetup.tables_eq, hsetup.words_eq,
      hsetup.mapped, hsetup.unmapped, hsetup.others, hsetup.dirAddr⟩
  exact hstart.congr rfl rfl rfl rfl rfl

/-- After `memory_init` the kernel directory is loaded and paging is enabled. -/
lemma memoryInit_loaded (s : MemoryState) :
    Loaded (memoryInit.exec s) kernelDirectory ∧ PagingOn (memoryInit.exec s) := by
  obtain ⟨t, ht, hexec⟩ := exec_memoryInit s
  obtain ⟨-, -, hloaded⟩ := pagingInit_spec
    { s with printed := s.printed ++ ["Initializing memory management...\n"] }
  rw [← ht] at hloaded
  rw [hexec]
  exact hloaded

end VVBright
