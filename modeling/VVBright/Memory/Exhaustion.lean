import VVBright.Memory.FrameRuns
import VVBright.Memory.TableFrames

/-!
# Running out of frames

`alloc_frame` reports failure by returning `NULL`, and `NULL` is also the address of frame 0.  Two
things follow.  The answer `NULL` means that no frame is left exactly as long as frame 0 is taken
(`allocFrame_signalsExhaustion_iff`).  And `map_page`, which does not look at the answer, goes on
with a page table at address 0 when there is no frame (`mapPage_untouched_iff`): it overwrites the
directory word of its slot and the first 4 KB of memory.
-/

namespace VVBright

open Traced

/-! ## The answer of `alloc_frame` -/

/-- The answer of `alloc_frame` tells failure from success: it is `NULL` exactly when every frame
is marked, and then the bitmap is left as it is. -/
structure SignalsExhaustion (s : MemoryState) : Prop where
  null_iff : allocFrame.eval s = NULL ↔ ∀ k < frameCount, k ∈ markedFrames s
  unchanged : allocFrame.eval s = NULL → ∀ i < 2048, frameWord (allocFrame.exec s) i = frameWord s i

/-- An allocation changes the word that holds the bit of the frame. -/
lemma frameWord_allocFrame_ne {s : MemoryState} (hs : BitmapReady s) {k : ℕ}
    (h : leastFree frameCount (markedFrames s) = some k) :
    frameWord (allocFrame.exec s) (k / 32) ≠ frameWord s (k / 32) := by
  obtain ⟨hk, hfree, -⟩ := leastFree_eq_some_iff.mp h
  intro heq
  have hnew : k ∈ markedFrames (allocFrame.exec s) := by
    rw [markedFrames_allocFrame hs h]
    exact Finset.mem_insert_self _ _
  have hbit : frameBit (allocFrame.exec s) k = frameBit s k := by rw [frameBit, frameBit, heq]
  rw [mem_markedFrames, hbit] at hnew
  exact hfree (mem_markedFrames.mpr hnew)

/-- The answer tells failure from success exactly when frame 0 is taken. -/
theorem signalsExhaustion_iff {s : MemoryState} (hs : BitmapReady s) :
    SignalsExhaustion s ↔ 0 ∈ markedFrames s := by
  have hpos : 0 < frameCount := by norm_num [frameCount]
  cases h : leastFree frameCount (markedFrames s) with
  | none =>
    -- every frame is taken, frame 0 among them
    have hall := leastFree_eq_none_iff.mp h
    obtain ⟨heval, hexec⟩ := allocFrame_of_full hs h
    refine iff_of_true ⟨iff_of_true heval hall, fun _ i _ => by rw [hexec]⟩ (hall 0 hpos)
  | some k =>
    obtain ⟨hk, hfree, hbelow⟩ := leastFree_eq_some_iff.mp h
    have heval := (allocFrame_of_least hs h).1
    have hnot : ¬ ∀ k < frameCount, k ∈ markedFrames s := fun hall => hfree (hall k hk)
    by_cases hk0 : k = 0
    · -- the answer `NULL` is the address of frame 0
      subst hk0
      exact iff_of_false (fun hsig => hnot (hsig.null_iff.mp heval)) hfree
    · have hne : allocFrame.eval s ≠ NULL := by
        rw [heval]
        exact frameAddr_ne_null hk hk0
      exact iff_of_true ⟨iff_of_false hne hnot, fun hnull => absurd hnull hne⟩
        (hbelow 0 (Nat.pos_of_ne_zero hk0))

/-- **`alloc_frame` signals exhaustion exactly while frame 0 is taken.**  After any run of
`alloc_frame` calls and of `free_frame` calls for frames that are held, from the cleared bitmap or
any other, the answer `NULL` means that every frame is marked, and leaves the bitmap alone, if and
only if frame 0 is marked before the call. -/
theorem allocFrame_signalsExhaustion_iff (s : MemoryState) (hs : BitmapReady s)
    (calls : List Call) (hrun : Along Client.step FrameCall calls (Client.start s)) :
    SignalsExhaustion (runActions Client.step calls (Client.start s)).st ↔
      0 ∈ markedFrames (runActions Client.step calls (Client.start s)).st := by
  have hstart : FrameInv (markedFrames s).card (Client.start s) :=
    ⟨hs, Pool.Inv.init frameCount (markedFrames s), by simp [Client.start]⟩
  have hc : FrameInv (markedFrames s).card (runActions Client.step calls (Client.start s)) :=
    hrun.invariant hstart fun call t ht hok => ht.step hok
  exact signalsExhaustion_iff hc.ready

/-- Once the first frame of an empty bitmap has been taken, `NULL` means exhaustion. -/
theorem allocFrame_signalsExhaustion_after_first :
    SignalsExhaustion (runActions Client.step [.allocFrame] (Client.start emptyBitmap)).st := by
  obtain ⟨-, -, hmarked, -⟩ := step_allocFrame_range (c := Client.start emptyBitmap)
    emptyBitmap_ready markedFrames_emptyBitmap (by norm_num [frameCount])
  refine (allocFrame_signalsExhaustion_iff emptyBitmap emptyBitmap_ready [.allocFrame]
    ⟨trivial, trivial⟩).mpr ?_
  rw [runActions, runActions, hmarked]
  decide

/-- The first allocation from an empty bitmap returns `NULL` although no frame is marked, and marks
frame 0. -/
theorem not_signalsExhaustion_emptyBitmap :
    allocFrame.eval emptyBitmap = NULL ∧ markedFrames emptyBitmap = ∅ ∧
      0 ∈ markedFrames (allocFrame.exec emptyBitmap) ∧
      frameWord (allocFrame.exec emptyBitmap) 0 ≠ frameWord emptyBitmap 0 ∧
      ¬ SignalsExhaustion emptyBitmap := by
  have hleast : leastFree frameCount (markedFrames emptyBitmap) = some 0 := by
    rw [markedFrames_emptyBitmap]
    exact leastFree_range (by norm_num [frameCount])
  have hword := frameWord_allocFrame_ne emptyBitmap_ready hleast
  rw [Nat.zero_div] at hword
  refine ⟨(allocFrame_of_least emptyBitmap_ready hleast).1, markedFrames_emptyBitmap, ?_, hword, ?_⟩
  · rw [markedFrames_allocFrame emptyBitmap_ready hleast]
    exact Finset.mem_insert_self _ _
  · rw [signalsExhaustion_iff emptyBitmap_ready, markedFrames_emptyBitmap]
    simp

/-! ## `map_page` without a free frame -/

/-- Every word of the bitmap that `first_free_frame` looks at is full, wherever the bitmap is and
whatever its size. -/
def BitmapFull (s : MemoryState) : Prop :=
  ∀ i < indexFromBit s.nFrames.toNat, frameWord s i = 0xFFFFFFFF#32

/-- A call for the page of `virt` has left the directory `d`, the bitmap and memory as they were,
so that the pages of the 4 MB of `virt` that were not present still are not. -/
structure Untouched (d : DirPtr) (virt : BitVec 32) (s t : MemoryState) : Prop where
  tables : ∀ i, (t.dirs d).tables i = (s.dirs d).tables i
  tablesPhysical : ∀ i, (t.dirs d).tablesPhysical i = (s.dirs d).tablesPhysical i
  bitmap : ∀ i < indexFromBit s.nFrames.toNat, frameWord t i = frameWord s i
  mem : t.mem = s.mem
  absent : ∀ v, tableIndex v = tableIndex virt → pageWalk s.mem (s.dirs d) v = none →
    pageWalk t.mem (t.dirs d) v = none

/-- The word `j` of the page table that `map_page` builds at address 0. -/
def strayWord (virt phys flags : BitVec 32) (j : ℕ) : BitVec 32 :=
  if j = entryIndex virt then filledEntry phys flags clearedEntry else clearedEntry

/-- With a full bitmap `alloc_frame` returns `NULL` and changes nothing. -/
lemma allocFrame_of_bitmapFull {s : MemoryState} (h : BitmapFull s) :
    allocFrame.eval s = NULL ∧ allocFrame.exec s = s := by
  have hnone : (searchLoop wordRound 0 (indexFromBit s.nFrames.toNat)).eval s = none := by
    refine eval_searchLoop_eq_none (fun i => exec_wordRound i s) fun i _ hi => ?_
    rw [eval_wordRound]
    exact eval_firstFreeBit_of_full i s ((eq_allOnes_iff _).mp (h i (by omega)))
  have hindex : firstFreeFrame.eval s = 0xFFFFFFFF#32 := by
    rw [firstFreeFrame, eval_bind, exec_gets, eval_gets, eval_bind, eval_pure, hnone]
    rfl
  constructor
  · rw [allocFrame, eval_bind, hindex, if_pos rfl, eval_pure]
  · rw [allocFrame, exec_bind, hindex, if_pos rfl, exec_pure, exec_firstFreeFrame]

section

variable {d : DirPtr} {virt : BitVec 32} (phys flags : BitVec 32) {s : MemoryState}
  (hfull : BitmapFull s) (hnull : (s.dirs d).tables (tableIndex virt) = NULL)

include hfull hnull

/-- Without a free frame `map_page` builds a page table at address 0. -/
lemma exec_mapPage_of_bitmapFull :
    (mapPage d virt phys flags).exec s =
      fillState (wordAddr NULL (entryIndex virt)) phys flags
        (newTableState d (tableIndex virt) NULL flags s) := by
  rw [exec_mapPage_of_null phys flags hnull, (allocFrame_of_bitmapFull hfull).1,
    (allocFrame_of_bitmapFull hfull).2]

/-- The words of the page table at address 0. -/
lemma load32_mapPage_of_bitmapFull {j : ℕ} (hj : j < 1024) :
    load32 ((mapPage d virt phys flags).exec s).mem (wordAddr NULL j) =
      strayWord virt phys flags j := by
  rw [exec_mapPage_of_bitmapFull phys flags hfull hnull, mem_fillState, mem_newTableState,
    load32_clearTableMem _ _ le_rfl (entryIndex_lt virt), strayWord]
  by_cases hj' : j = entryIndex virt
  · rw [if_pos hj', hj', load32_store32_same]
  · have hlt := entryIndex_lt virt
    rw [if_neg hj', load32_store32_of_apart _ _
      (wordAddr_apart (by omega) (by omega) (Ne.symm hj')), load32_clearTableMem _ _ le_rfl hj]

/-- The words above the first 4 KB are left alone. -/
lemma load32_mapPage_of_bitmapFull_off {j : ℕ} (hj : 1024 ≤ j) (hj' : j < 2 ^ 30) :
    load32 ((mapPage d virt phys flags).exec s).mem (wordAddr NULL j) =
      load32 s.mem (wordAddr NULL j) := by
  have hlt := entryIndex_lt virt
  have hoff : OffTable NULL (wordAddr NULL j) :=
    fun i hi => wordAddr_apart (by omega) (by omega) (by omega)
  rw [exec_mapPage_of_bitmapFull phys flags hfull hnull, mem_fillState, mem_newTableState,
    load32_store32_of_apart _ _ (hoff _ hlt), load32_clearTableMem_of_off _ hoff le_rfl]

/-- Memory is unchanged exactly when the page table at address 0 was there already. -/
lemma mem_mapPage_of_bitmapFull_iff :
    ((mapPage d virt phys flags).exec s).mem = s.mem ↔
      ∀ j < 1024, load32 s.mem (wordAddr NULL j) = strayWord virt phys flags j := by
  constructor
  · intro hmem j hj
    rw [← load32_mapPage_of_bitmapFull phys flags hfull hnull hj, hmem]
  · intro hwords
    funext x
    have hx := x.isLt
    have haddr : (wordAddr NULL (x.toNat / 4)).toNat = 0 + 4 * (x.toNat / 4) :=
      toNat_wordAddr (by change 0 + _ < _; omega)
    apply byte_eq_of_load32_eq (a := wordAddr NULL (x.toNat / 4))
    · by_cases hj : x.toNat / 4 < 1024
      · rw [load32_mapPage_of_bitmapFull phys flags hfull hnull hj, hwords _ hj]
      · exact load32_mapPage_of_bitmapFull_off phys flags hfull hnull (by omega) (by omega)
    · bv_omega

/-- The pointers stay as they are: the new one is `NULL` again. -/
lemma tables_mapPage_of_bitmapFull (i : Fin 1024) :
    (((mapPage d virt phys flags).exec s).dirs d).tables i = (s.dirs d).tables i := by
  rw [tables_mapPage, (allocFrame_of_bitmapFull hfull).1]
  split
  · rename_i h
    rw [h.2.2, hnull]
  · rfl

/-- The directory word of the slot is overwritten. -/
lemma tablesPhysical_mapPage_of_bitmapFull (i : Fin 1024) :
    (((mapPage d virt phys flags).exec s).dirs d).tablesPhysical i =
      if i = tableIndex virt then flags ||| 0x01#32 else (s.dirs d).tablesPhysical i := by
  rw [tablesPhysical_mapPage, (allocFrame_of_bitmapFull hfull).1,
    show NULL ||| flags ||| 0x01#32 = flags ||| 0x01#32 by simp [NULL]]
  simp only [hnull, true_and]

/-- The page the call was for is then mapped through the table at address 0. -/
lemma pageWalk_mapPage_of_bitmapFull (hflags : flags.toNat < 0x1000) :
    pageWalk ((mapPage d virt phys flags).exec s).mem (((mapPage d virt phys flags).exec s).dirs d)
      virt = some (BitVec.ofNat 32 (phys.toNat / 4096 * 4096 + virt.toNat % 4096)) := by
  have hword := tablesPhysical_mapPage_of_bitmapFull phys flags hfull hnull (tableIndex virt)
  rw [if_pos rfl] at hword
  have hlt : (flags ||| 0x01#32).toNat < 2 ^ 12 := by
    rw [BitVec.toNat_or]
    exact Nat.or_lt_two_pow hflags (by decide)
  rw [pageWalk_of_frame (f := 0) (by rw [hword]; simp) (by rw [hword]; omega),
    show frameAddr 0 = NULL from rfl,
    load32_mapPage_of_bitmapFull phys flags hfull hnull (entryIndex_lt virt), strayWord, if_pos rfl,
    entryTarget_filledEntry]

end

/-- The walk reads the directory words and memory only. -/
lemma pageWalk_congr {m : Memory} {dir dir' : PageDirectory}
    (h : ∀ i, dir'.tablesPhysical i = dir.tablesPhysical i) (v : BitVec 32) :
    pageWalk m dir' v = pageWalk m dir v := by
  rw [pageWalk, pageWalk, h]

/-- **When `map_page` leaves everything alone for want of a frame.**  In every state without a free
frame, a call for a slot without a page table leaves the directory, the bitmap and memory unchanged
exactly when what it writes was there before: the directory word of the slot is the flags with the
present bit, and the first 4 KB of memory hold the page table with the one entry.  With flags below
`0x1000` the page becomes present in any case. -/
theorem mapPage_untouched_iff (s : MemoryState) (d : DirPtr) (virt phys flags : BitVec 32)
    (hfull : BitmapFull s) (hnull : (s.dirs d).tables (tableIndex virt) = NULL) :
    (Untouched d virt s ((mapPage d virt phys flags).exec s) ↔
      (s.dirs d).tablesPhysical (tableIndex virt) = flags ||| 0x01#32 ∧
        ∀ j < 1024, load32 s.mem (wordAddr NULL j) = strayWord virt phys flags j) ∧
    (flags.toNat < 0x1000 →
      pageWalk ((mapPage d virt phys flags).exec s).mem
        (((mapPage d virt phys flags).exec s).dirs d) virt =
          some (BitVec.ofNat 32 (phys.toNat / 4096 * 4096 + virt.toNat % 4096))) := by
  have hword := tablesPhysical_mapPage_of_bitmapFull phys flags hfull hnull
  have hmem := mem_mapPage_of_bitmapFull_iff phys flags hfull hnull
  refine ⟨⟨?_, ?_⟩, pageWalk_mapPage_of_bitmapFull phys flags hfull hnull⟩
  · intro h
    refine ⟨?_, hmem.mp h.mem⟩
    rw [← h.tablesPhysical, hword, if_pos rfl]
  · rintro ⟨hslot, hwords⟩
    have hmem' := hmem.mpr hwords
    have hword' : ∀ i, (((mapPage d virt phys flags).exec s).dirs d).tablesPhysical i =
        (s.dirs d).tablesPhysical i := by
      intro i
      rw [hword]
      split
      · rename_i hi
        rw [hi, hslot]
      · rfl
    have hframes : ((mapPage d virt phys flags).exec s).frames = s.frames := by
      rw [exec_mapPage_of_bitmapFull phys flags hfull hnull]
      rfl
    refine ⟨tables_mapPage_of_bitmapFull phys flags hfull hnull, hword', ?_, hmem', ?_⟩
    · intro i _
      rw [frameWord, hframes, hmem', frameWord]
    · intro v _ habsent
      rw [hmem', pageWalk_congr hword', habsent]

/-- A state with every frame taken, in memory that is zero but for the bitmap. -/
def fullBitmap : MemoryState :=
  { emptyBitmap with
    mem := fun x => if 0x100000 ≤ x.toNat ∧ x.toNat < 0x102000 then 0xFF#8 else 0#8 }

lemma fullBitmap_full : BitmapFull fullBitmap := by
  intro i hi
  change i < 2048 at hi
  have haddr : (wordAddr 0x100000#32 i).toNat = 0x100000 + 4 * i :=
    toNat_wordAddr (by change 0x100000 + 4 * i < _; omega)
  have hbyte : ∀ k < 4, fullBitmap.mem (wordAddr 0x100000#32 i + BitVec.ofNat 32 k) = 0xFF#8 := by
    intro k hk
    exact if_pos (by bv_omega)
  rw [frameWord, show fullBitmap.frames = 0x100000#32 from rfl, load32, hbyte 3 (by omega),
    hbyte 2 (by omega), hbyte 1 (by omega), hbyte 0 (by omega)]
  decide

/-- Without a free frame a kernel page becomes present all the same. -/
theorem mapPage_present_fullBitmap :
    BitmapFull fullBitmap ∧
      (fullBitmap.dirs kernelDirectory).tables (tableIndex 0x400000#32) = NULL ∧
      pageWalk ((mapPage kernelDirectory 0x400000#32 0x5000#32 0x03#32).exec fullBitmap).mem
        (((mapPage kernelDirectory 0x400000#32 0x5000#32 0x03#32).exec fullBitmap).dirs
          kernelDirectory) 0x400000#32 = some 0x5000#32 :=
  ⟨fullBitmap_full, rfl,
    (mapPage_untouched_iff fullBitmap kernelDirectory 0x400000#32 0x5000#32 0x03#32 fullBitmap_full
      rfl).2 (by decide)⟩

/-- Without a free frame the directory word of the slot changes from 0 to 3, and the page that was
not present becomes so. -/
theorem not_untouched_fullBitmap :
    pageWalk fullBitmap.mem (fullBitmap.dirs kernelDirectory) 0x400000#32 = none ∧
      (fullBitmap.dirs kernelDirectory).tablesPhysical 1 = 0#32 ∧
      (((mapPage kernelDirectory 0x400000#32 0x5000#32 0x03#32).exec fullBitmap).dirs
        kernelDirectory).tablesPhysical 1 = 0x03#32 ∧
      ¬ Untouched kernelDirectory 0x400000#32 fullBitmap
        ((mapPage kernelDirectory 0x400000#32 0x5000#32 0x03#32).exec fullBitmap) := by
  have hslot : tableIndex 0x400000#32 = 1 := by decide
  have hnull : (fullBitmap.dirs kernelDirectory).tables (tableIndex 0x400000#32) = NULL := rfl
  have hword := tablesPhysical_mapPage_of_bitmapFull 0x5000#32 0x03#32 fullBitmap_full hnull 1
  rw [hslot, if_pos rfl] at hword
  refine ⟨pageWalk_of_absent rfl, rfl, hword, fun h => ?_⟩
  have hsame := h.tablesPhysical 1
  rw [hword] at hsame
  exact absurd hsame (by decide)

end VVBright
