import VVBright.Foundation.FirstFit
import VVBright.Memory.State

/-!
# The frame bitmap

`set_frame`, `clear_frame`, `test_frame`, `first_free_frame`, `alloc_frame` and `free_frame` of
`memory.c`, and the set of frames the bitmap stands for.

`markedFrames s` is the set of the frames whose bit is set.  In this view the two-level scan of
`first_free_frame` computes `leastFree` (`eval_firstFreeFrame`), `alloc_frame` inserts the least
free frame and `free_frame` erases one (`markedFrames_allocFrame`, `markedFrames_freeFrame`).  Each
of the functions touches words of the bitmap only, which `BitmapOnly` records for the callers.
-/

namespace VVBright

open Traced

/-! ## The functions of `memory.c` -/

/-- `INDEX_FROM_BIT`. -/
def indexFromBit (b : ℕ) : ℕ := b / 32

/-- `OFFSET_FROM_BIT`. -/
def offsetFromBit (b : ℕ) : ℕ := b % 32

/-- `frames[idx]` as a value. -/
def readFrames (idx : ℕ) : MemM (BitVec 32) := do
  let frames ← gets MemoryState.frames
  loadWord (wordAddr frames idx)

/-- `frames[idx] = v`. -/
def writeFrames (idx : ℕ) (v : BitVec 32) : MemM Unit := do
  let frames ← gets MemoryState.frames
  storeWord (wordAddr frames idx) v

/-- `set_frame`. -/
def setFrame (frameAddr : BitVec 32) : MemM Unit := do
  let frame := frameAddr.toNat / pageSize
  let idx := indexFromBit frame
  let off := offsetFromBit frame
  let word ← readFrames idx
  writeFrames idx (word ||| 1#32 <<< off)

/-- `clear_frame`. -/
def clearFrame (frameAddr : BitVec 32) : MemM Unit := do
  let frame := frameAddr.toNat / pageSize
  let idx := indexFromBit frame
  let off := offsetFromBit frame
  let word ← readFrames idx
  writeFrames idx (word &&& ~~~(1#32 <<< off))

/-- `test_frame`, which no function calls. -/
def testFrame (frameAddr : BitVec 32) : MemM (BitVec 32) := do
  let frame := frameAddr.toNat / pageSize
  let idx := indexFromBit frame
  let off := offsetFromBit frame
  let word ← readFrames idx
  pure (word &&& 1#32 <<< off)

/-- The body of the inner loop of `first_free_frame`: test the bit `j` of the word `i`. -/
def bitRound (i j : ℕ) : MemM (Option (BitVec 32)) := do
  let testBit := 1#32 <<< j
  let word ← readFrames i
  if word &&& testBit = 0#32 then
    pure (some (BitVec.ofNat 32 (i * 32 + j)))
  else
    pure none

/-- The inner loop of `first_free_frame`: look for a clear bit of the word `i`. -/
def firstFreeBit (i : ℕ) : MemM (Option (BitVec 32)) := searchLoop (bitRound i) 0 32

/-- The body of the outer loop of `first_free_frame`: full words are skipped. -/
def wordRound (i : ℕ) : MemM (Option (BitVec 32)) := do
  let word ← readFrames i
  if word ≠ 0xFFFFFFFF#32 then
    firstFreeBit i
  else
    pure none

/-- `first_free_frame`; `(uint32_t)-1` reports that every bit is set. -/
def firstFreeFrame : MemM (BitVec 32) := do
  let nFrames ← gets MemoryState.nFrames
  let found ← searchLoop wordRound 0 (indexFromBit nFrames.toNat)
  pure (found.getD 0xFFFFFFFF#32)

/-- `alloc_frame`. -/
def allocFrame : MemM (BitVec 32) := do
  let frameIndex ← firstFreeFrame
  if frameIndex = 0xFFFFFFFF#32 then
    pure NULL
  else do
    setFrame (frameIndex * 4096#32)
    pure (frameIndex * 4096#32)

/-- `free_frame`. -/
def freeFrame (frameAddr : BitVec 32) : MemM Unit := clearFrame frameAddr

/-! ## The set of marked frames -/

/-- The number of frames `paging_init` manages: 256 MB of 4 KB frames. -/
def frameCount : ℕ := 65536

/-- The bitmap as `paging_init` sets it up: 65536 bits at 1 MB. -/
structure BitmapReady (s : MemoryState) : Prop where
  /-- `frames = (uint32_t*)0x100000`. -/
  frames_eq : s.frames = 0x100000#32
  /-- `n_frames = 0x10000000 / PAGE_SIZE`. -/
  nFrames_eq : s.nFrames = 65536#32

/-- The word `i` of the bitmap. -/
def frameWord (s : MemoryState) (i : ℕ) : BitVec 32 := load32 s.mem (wordAddr s.frames i)

/-- The bit of the frame `k`. -/
def frameBit (s : MemoryState) (k : ℕ) : Bool := (frameWord s (k / 32)).getLsbD (k % 32)

/-- The frames whose bit is set. -/
def markedFrames (s : MemoryState) : Finset ℕ :=
  (Finset.range frameCount).filter fun k => frameBit s k = true

/-- The address `a` is that of one of the 2048 words of the bitmap. -/
def InBitmap (s : MemoryState) (a : BitVec 32) : Prop := ∃ i < 2048, a = wordAddr s.frames i

/-- The word at `a` shares no byte with the bitmap. -/
def OffBitmap (s : MemoryState) (a : BitVec 32) : Prop :=
  ∀ i < 2048, WordsApart (wordAddr s.frames i) a

/-- The state `t` is `s` up to the contents of the bitmap. -/
structure BitmapOnly (s t : MemoryState) : Prop where
  /-- Only memory differs. -/
  rest : t = { s with mem := t.mem }
  /-- Words off the bitmap are the same. -/
  off : ∀ a, OffBitmap s a → load32 t.mem a = load32 s.mem a

lemma mem_markedFrames {s : MemoryState} {k : ℕ} :
    k ∈ markedFrames s ↔ k < frameCount ∧ frameBit s k = true := by
  simp [markedFrames]

/-- A frame below the limit is unmarked exactly when its bit is clear. -/
lemma notMem_markedFrames {s : MemoryState} {k : ℕ} (hk : k < frameCount) :
    k ∉ markedFrames s ↔ frameBit s k = false := by
  simp [mem_markedFrames, hk]

lemma BitmapOnly.refl (s : MemoryState) : BitmapOnly s s := ⟨rfl, fun _ _ => rfl⟩

lemma BitmapOnly.trans {s t u : MemoryState} (hst : BitmapOnly s t) (htu : BitmapOnly t u) :
    BitmapOnly s u := by
  refine ⟨?_, ?_⟩
  · rw [htu.rest, hst.rest]
  · intro a ha
    have hframes : t.frames = s.frames := by rw [hst.rest]
    rw [htu.off a (by rwa [OffBitmap, hframes]), hst.off a ha]

/-- The bitmap stays where it is. -/
lemma BitmapOnly.ready {s t : MemoryState} (h : BitmapOnly s t) (hs : BitmapReady s) :
    BitmapReady t := by
  rw [h.rest]
  exact ⟨hs.frames_eq, hs.nFrames_eq⟩

/-! ## Stores into the bitmap -/

/-- The state after storing `v` in the word `i` of the bitmap. -/
def storeFrameWord (s : MemoryState) (i : ℕ) (v : BitVec 32) : MemoryState :=
  { s with mem := store32 s.mem (wordAddr s.frames i) v }

/-- A store into the bitmap changes the one word. -/
lemma frameWord_storeFrameWord (s : MemoryState) {i j : ℕ} (v : BitVec 32) (hi : i < 2048)
    (hj : j < 2048) :
    frameWord (storeFrameWord s i v) j = if j = i then v else frameWord s j := by
  by_cases hij : j = i
  · subst hij
    rw [if_pos rfl]
    exact load32_store32_same _ _ _
  · rw [if_neg hij]
    exact load32_store32_of_apart _ _ (wordAddr_apart (by omega) (by omega) (Ne.symm hij))

/-- A store into the bitmap changes the bits of the one word. -/
lemma frameBit_storeFrameWord (s : MemoryState) {i k : ℕ} (v : BitVec 32) (hi : i < 2048)
    (hk : k < frameCount) :
    frameBit (storeFrameWord s i v) k =
      if k / 32 = i then v.getLsbD (k % 32) else frameBit s k := by
  have hk' : k < 65536 := hk
  rw [frameBit, frameWord_storeFrameWord s v hi (by omega)]
  by_cases hw : k / 32 = i
  · rw [if_pos hw, if_pos hw]
  · rw [if_neg hw, if_neg hw, frameBit]

/-- A store into the bitmap is a change of the bitmap only. -/
lemma storeFrameWord_bitmapOnly (s : MemoryState) {i : ℕ} (v : BitVec 32) (hi : i < 2048) :
    BitmapOnly s (storeFrameWord s i v) :=
  ⟨rfl, fun _ ha => load32_store32_of_apart _ _ (ha i hi)⟩

lemma exec_setFrame (p : BitVec 32) (s : MemoryState) :
    (setFrame p).exec s = storeFrameWord s (p.toNat / 4096 / 32)
      (frameWord s (p.toNat / 4096 / 32) ||| 1#32 <<< (p.toNat / 4096 % 32)) := rfl

lemma exec_clearFrame (p : BitVec 32) (s : MemoryState) :
    (clearFrame p).exec s = storeFrameWord s (p.toNat / 4096 / 32)
      (frameWord s (p.toNat / 4096 / 32) &&& ~~~(1#32 <<< (p.toNat / 4096 % 32))) := rfl

section

variable {p : BitVec 32} (s : MemoryState) (hp : p.toNat < 2 ^ 28)

include hp

/-- `set_frame` sets the bit of the frame and no other. -/
theorem frameBit_setFrame {k : ℕ} (hk : k < frameCount) :
    frameBit ((setFrame p).exec s) k = (decide (k = p.toNat / 4096) || frameBit s k) := by
  have hk' : k < 65536 := hk
  rw [exec_setFrame, frameBit_storeFrameWord s _ (by omega) hk]
  by_cases hw : k / 32 = p.toNat / 4096 / 32
  · have hbit : (k % 32 = p.toNat / 4096 % 32) = (k = p.toNat / 4096) := by
      simp only [eq_iff_iff]; omega
    rw [if_pos hw, getLsbD_or_one_shiftLeft _ (by omega), frameBit, hw]
    simp only [hbit]
  · have hne : k ≠ p.toNat / 4096 := fun h => hw (by rw [h])
    simp [hw, hne]

/-- `clear_frame` clears the bit of the frame and no other. -/
theorem frameBit_clearFrame {k : ℕ} (hk : k < frameCount) :
    frameBit ((clearFrame p).exec s) k = (!decide (k = p.toNat / 4096) && frameBit s k) := by
  have hk' : k < 65536 := hk
  rw [exec_clearFrame, frameBit_storeFrameWord s _ (by omega) hk]
  by_cases hw : k / 32 = p.toNat / 4096 / 32
  · have hbit : (k % 32 = p.toNat / 4096 % 32) = (k = p.toNat / 4096) := by
      simp only [eq_iff_iff]; omega
    rw [if_pos hw, getLsbD_and_not_one_shiftLeft _ (by omega), frameBit, hw]
    simp only [hbit]
  · have hne : k ≠ p.toNat / 4096 := fun h => hw (by rw [h])
    simp [hw, hne]

/-- `set_frame` adds the frame to the marked ones. -/
theorem markedFrames_setFrame :
    markedFrames ((setFrame p).exec s) = insert (p.toNat / 4096) (markedFrames s) := by
  ext k
  rw [Finset.mem_insert, mem_markedFrames, mem_markedFrames]
  constructor
  · rintro ⟨hk, hbit⟩
    rw [frameBit_setFrame s hp hk] at hbit
    rcases Bool.or_eq_true_iff.mp hbit with h | h
    · exact Or.inl (of_decide_eq_true h)
    · exact Or.inr ⟨hk, h⟩
  · rintro (rfl | ⟨hk, hbit⟩)
    · have hk : p.toNat / 4096 < frameCount := by rw [frameCount]; omega
      exact ⟨hk, by rw [frameBit_setFrame s hp hk]; simp⟩
    · exact ⟨hk, by rw [frameBit_setFrame s hp hk, hbit, Bool.or_true]⟩

/-- `free_frame` removes the frame from the marked ones. -/
theorem markedFrames_freeFrame :
    markedFrames ((freeFrame p).exec s) = (markedFrames s).erase (p.toNat / 4096) := by
  ext k
  rw [Finset.mem_erase, mem_markedFrames, mem_markedFrames, freeFrame]
  constructor
  · rintro ⟨hk, hbit⟩
    rw [frameBit_clearFrame s hp hk, Bool.and_eq_true] at hbit
    exact ⟨by simpa using hbit.1, hk, hbit.2⟩
  · rintro ⟨hne, hk, hbit⟩
    exact ⟨hk, by rw [frameBit_clearFrame s hp hk, hbit]; simp [hne]⟩

lemma setFrame_bitmapOnly : BitmapOnly s ((setFrame p).exec s) := by
  rw [exec_setFrame]
  exact storeFrameWord_bitmapOnly s _ (by omega)

lemma freeFrame_bitmapOnly : BitmapOnly s ((freeFrame p).exec s) := by
  rw [freeFrame, exec_clearFrame]
  exact storeFrameWord_bitmapOnly s _ (by omega)

/-- The word of the bitmap that holds the bit of a frame. -/
private lemma indexFromBit_lt : indexFromBit (p.toNat / pageSize) < 2048 := by
  rw [indexFromBit, pageSize]
  omega

lemma setFrame_accessesIn {P : MemoryState → BitVec 32 → Prop}
    (hP : ∀ i < 2048, P s (wordAddr s.frames i)) : AccessesIn P (setFrame p) s := by
  simp [setFrame, readFrames, writeFrames, hP _ (indexFromBit_lt hp)]

lemma freeFrame_accessesIn : AccessesIn InBitmap (freeFrame p) s := by
  have hword : InBitmap s (wordAddr s.frames (indexFromBit (p.toNat / pageSize))) :=
    ⟨_, indexFromBit_lt hp, rfl⟩
  simp [freeFrame, clearFrame, readFrames, writeFrames, hword]

end

/-! ## The scan for a free frame -/

lemma exec_readFrames (i : ℕ) (s : MemoryState) : (readFrames i).exec s = s := rfl

lemma eval_readFrames (i : ℕ) (s : MemoryState) : (readFrames i).eval s = frameWord s i := rfl

section

variable (i : ℕ) (s : MemoryState)

lemma exec_bitRound (j : ℕ) : (bitRound i j).exec s = s := by
  rw [bitRound, exec_bind, exec_readFrames]
  split <;> rfl

lemma eval_bitRound {j : ℕ} (hj : j < 32) :
    (bitRound i j).eval s =
      if (frameWord s i).getLsbD j = false then some (BitVec.ofNat 32 (i * 32 + j)) else none := by
  rw [bitRound, eval_bind, exec_readFrames, eval_readFrames]
  simp only [and_one_shiftLeft_eq_zero_iff (frameWord s i) hj]
  split <;> rfl

lemma exec_firstFreeBit : (firstFreeBit i).exec s = s :=
  exec_searchLoop (exec_bitRound i s)

/-- In a full word the inner loop finds nothing. -/
lemma eval_firstFreeBit_of_full (h : ∀ j < 32, (frameWord s i).getLsbD j = true) :
    (firstFreeBit i).eval s = none := by
  refine eval_searchLoop_eq_none (exec_bitRound i s) fun j _ hj => ?_
  rw [eval_bitRound i s (by omega), h j (by omega)]
  simp

/-- The inner loop finds the least clear bit of its word. -/
lemma eval_firstFreeBit {j : ℕ} (hj : j < 32) (hbit : (frameWord s i).getLsbD j = false)
    (hbelow : ∀ j' < j, (frameWord s i).getLsbD j' = true) :
    (firstFreeBit i).eval s = some (BitVec.ofNat 32 (i * 32 + j)) := by
  refine eval_searchLoop_eq_some (exec_bitRound i s) (Nat.zero_le j) (by omega) ?_ ?_
  · rw [eval_bitRound i s hj, if_pos hbit]
  · intro j' _ hj'
    rw [eval_bitRound i s (by omega), hbelow j' hj']
    simp

lemma exec_wordRound : (wordRound i).exec s = s := by
  rw [wordRound, exec_bind, exec_readFrames]
  split
  · exact exec_firstFreeBit i s
  · rfl

/-- Skipping full words makes no difference: the inner loop would find nothing there. -/
lemma eval_wordRound : (wordRound i).eval s = (firstFreeBit i).eval s := by
  rw [wordRound, eval_bind, exec_readFrames, eval_readFrames]
  split
  · rfl
  · rename_i hfull
    have hones : frameWord s i = BitVec.allOnes 32 := by
      rw [not_not] at hfull
      rw [hfull]
      rfl
    rw [eval_firstFreeBit_of_full i s ((eq_allOnes_iff _).mp hones)]
    rfl

end

/-- `first_free_frame` changes nothing. -/
@[simp] lemma exec_firstFreeFrame (s : MemoryState) : firstFreeFrame.exec s = s := by
  rw [firstFreeFrame, exec_bind, exec_gets, exec_bind, exec_pure]
  exact exec_searchLoop fun i => exec_wordRound i s

/-- The two-level scan of `first_free_frame` computes the least free frame. -/
theorem eval_firstFreeFrame {s : MemoryState} (hs : BitmapReady s) :
    firstFreeFrame.eval s =
      ((leastFree frameCount (markedFrames s)).map (BitVec.ofNat 32)).getD 0xFFFFFFFF#32 := by
  have hwords : indexFromBit s.nFrames.toNat = 2048 := by rw [hs.nFrames_eq]; rfl
  have hbit : ∀ i < 2048, ∀ j < 32, (frameWord s i).getLsbD j = frameBit s (i * 32 + j) := by
    intro i _ j hj
    rw [frameBit, show (i * 32 + j) / 32 = i by omega, show (i * 32 + j) % 32 = j by omega]
  rw [firstFreeFrame, eval_bind, exec_gets, eval_gets, hwords, eval_bind, eval_pure]
  cases hleast : leastFree frameCount (markedFrames s) with
  | none =>
    have hall := leastFree_eq_none_iff.mp hleast
    rw [eval_searchLoop_eq_none fun i => exec_wordRound i s]
    · rfl
    · intro i _ hi
      rw [eval_wordRound]
      refine eval_firstFreeBit_of_full i s fun j hj => ?_
      rw [hbit i (by omega) j hj]
      exact (mem_markedFrames.mp (hall _ (by rw [frameCount]; omega))).2
  | some k =>
    obtain ⟨hk, hfree, hbelow⟩ := leastFree_eq_some_iff.mp hleast
    have hk' : k < 65536 := hk
    have hset : ∀ k' < k, frameBit s k' = true := fun k' h => (mem_markedFrames.mp (hbelow k' h)).2
    have hsplit : k / 32 * 32 + k % 32 = k := by omega
    -- the word `k / 32` is the first one with a clear bit, and `k % 32` is its least clear bit
    rw [eval_searchLoop_eq_some (j := k / 32) (r := BitVec.ofNat 32 k)
      (fun i => exec_wordRound i s) (Nat.zero_le _) (by omega)]
    · rfl
    · rw [eval_wordRound, eval_firstFreeBit (k / 32) s (j := k % 32) (by omega), hsplit]
      · rw [hbit _ (by omega) _ (by omega), hsplit]
        exact (notMem_markedFrames hk).mp hfree
      · intro j hj
        rw [hbit _ (by omega) _ (by omega)]
        exact hset _ (by omega)
    · intro i _ hi
      rw [eval_wordRound]
      refine eval_firstFreeBit_of_full i s fun j hj => ?_
      rw [hbit i (by omega) j hj]
      exact hset _ (by omega)

/-- `first_free_frame` accesses the bitmap only, without changing the state in between. -/
lemma firstFreeFrame_accessesIn {s : MemoryState} (hs : BitmapReady s)
    {P : MemoryState → BitVec 32 → Prop} (hP : ∀ i < 2048, P s (wordAddr s.frames i)) :
    AccessesIn P firstFreeFrame s := by
  have hwords : indexFromBit s.nFrames.toNat = 2048 := by rw [hs.nFrames_eq]; rfl
  have hread : ∀ i < 2048, AccessesIn P (readFrames i) s := by
    intro i hi
    simp [readFrames, hP i hi]
  have hbit : ∀ i < 2048, ∀ j, AccessesIn P (bitRound i j) s := by
    intro i hi j
    rw [bitRound, accessesIn_bind]
    refine ⟨hread i hi, ?_⟩
    split <;> exact accessesIn_pure _ _ _
  rw [firstFreeFrame, accessesIn_bind, accessesIn_bind, exec_gets, eval_gets, hwords]
  refine ⟨accessesIn_gets _ _ _, ?_, accessesIn_pure _ _ _⟩
  refine searchLoop_accessesIn (fun i => exec_wordRound i s) fun i _ hi => ?_
  rw [wordRound, accessesIn_bind, exec_readFrames]
  refine ⟨hread i (by omega), ?_⟩
  split
  · exact searchLoop_accessesIn (exec_bitRound i s) fun j _ _ => hbit i (by omega) j
  · exact accessesIn_pure _ _ _

/-! ## Allocation -/

/-- The address of the frame `k`. -/
def frameAddr (k : ℕ) : BitVec 32 := BitVec.ofNat 32 (4096 * k)

lemma toNat_frameAddr {k : ℕ} (hk : k < frameCount) : (frameAddr k).toNat = 4096 * k := by
  have hk' : k < 65536 := hk
  rw [frameAddr, BitVec.toNat_ofNat]
  omega

/-- `alloc_frame` changes memory only, wherever the bitmap is. -/
lemma dirs_allocFrame (s : MemoryState) : (allocFrame.exec s).dirs = s.dirs := by
  rw [allocFrame, exec_bind, exec_firstFreeFrame]
  split <;> rfl

/-- What `alloc_frame` returns is aligned to a page. -/
lemma allocFrame_aligned (s : MemoryState) : (allocFrame.eval s).toNat % 4096 = 0 := by
  rw [allocFrame, eval_bind, exec_firstFreeFrame]
  split
  · rfl
  · rw [eval_bind, eval_pure, BitVec.toNat_mul]
    change _ * 4096 % 2 ^ 32 % 4096 = 0
    omega

section

variable {s : MemoryState} (hs : BitmapReady s)

include hs

/-- `alloc_frame` with every frame marked returns `NULL` and changes nothing. -/
theorem allocFrame_of_full (h : leastFree frameCount (markedFrames s) = none) :
    allocFrame.eval s = NULL ∧ allocFrame.exec s = s := by
  have hindex : firstFreeFrame.eval s = 0xFFFFFFFF#32 := by rw [eval_firstFreeFrame hs, h]; rfl
  constructor
  · rw [allocFrame, eval_bind, hindex, if_pos rfl, eval_pure]
  · rw [allocFrame, exec_bind, hindex, if_pos rfl, exec_pure, exec_firstFreeFrame]

/-- `alloc_frame` otherwise marks the least free frame and returns its address. -/
theorem allocFrame_of_least {k : ℕ} (h : leastFree frameCount (markedFrames s) = some k) :
    allocFrame.eval s = frameAddr k ∧ allocFrame.exec s = (setFrame (frameAddr k)).exec s := by
  have hk : k < 65536 := (leastFree_eq_some_iff.mp h).1
  have hindex : firstFreeFrame.eval s = BitVec.ofNat 32 k := by
    rw [eval_firstFreeFrame hs, h]
    rfl
  have hne : BitVec.ofNat 32 k ≠ 0xFFFFFFFF#32 := by bv_omega
  have haddr : BitVec.ofNat 32 k * 4096#32 = frameAddr k := by rw [frameAddr]; bv_omega
  constructor
  · rw [allocFrame, eval_bind, hindex, if_neg hne, eval_bind, eval_pure, haddr]
  · rw [allocFrame, exec_bind, hindex, if_neg hne, exec_bind, exec_pure, haddr, exec_firstFreeFrame]

/-- After a successful allocation exactly the returned frame is new in the marked set. -/
theorem markedFrames_allocFrame {k : ℕ} (h : leastFree frameCount (markedFrames s) = some k) :
    markedFrames (allocFrame.exec s) = insert k (markedFrames s) := by
  have hk : k < frameCount := (leastFree_eq_some_iff.mp h).1
  have hk' : k < 65536 := hk
  have haddr := toNat_frameAddr hk
  rw [(allocFrame_of_least hs h).2, markedFrames_setFrame s (by omega), haddr,
    Nat.mul_div_cancel_left k (by norm_num)]

/-- `alloc_frame` changes the bitmap only. -/
lemma allocFrame_bitmapOnly : BitmapOnly s (allocFrame.exec s) := by
  cases h : leastFree frameCount (markedFrames s) with
  | none =>
    rw [(allocFrame_of_full hs h).2]
    exact BitmapOnly.refl s
  | some k =>
    have hk : k < frameCount := (leastFree_eq_some_iff.mp h).1
    have hk' : k < 65536 := hk
    have haddr := toNat_frameAddr hk
    rw [(allocFrame_of_least hs h).2]
    exact setFrame_bitmapOnly s (by omega)

/-- `alloc_frame` accesses the bitmap only, and all its accesses come before it changes it. -/
lemma allocFrame_accessesIn {P : MemoryState → BitVec 32 → Prop}
    (hP : ∀ i < 2048, P s (wordAddr s.frames i)) : AccessesIn P allocFrame s := by
  rw [allocFrame, accessesIn_bind, exec_firstFreeFrame]
  refine ⟨firstFreeFrame_accessesIn hs hP, ?_⟩
  split
  · exact accessesIn_pure _ _ _
  · rename_i hne
    rw [accessesIn_bind]
    refine ⟨setFrame_accessesIn s ?_ hP, accessesIn_pure _ _ _⟩
    rw [eval_firstFreeFrame hs] at hne ⊢
    cases h : leastFree frameCount (markedFrames s) with
    | none => simp [h] at hne
    | some k =>
      have hk : k < 65536 := (leastFree_eq_some_iff.mp h).1
      simp only [Option.map_some, Option.getD_some]
      bv_omega

end

end VVBright
