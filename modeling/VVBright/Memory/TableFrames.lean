import VVBright.Memory.Client

/-!
# Page tables in frames

A page table fills one frame, so its entries are the words `entryAddr f e` with `e < 1024`.  Words
of different frames are apart, and a frame that does not overlap the bitmap is apart from the words
of the bitmap: writing a page entry then leaves every bit of the bitmap alone, and marking a frame
leaves every page entry alone.  The directory word built by `map_page` names the frame of the table
and is present.
-/

namespace VVBright

/-- Some byte of the frame `f` lies in `[lo, hi)`. -/
def FrameOverlaps (f lo hi : ℕ) : Prop := ∃ x, x / 4096 = f ∧ lo ≤ x ∧ x < hi

/-- The storage of the bitmap: `n_frames / 8` bytes from 1 MB. -/
def OverlapsBitmap (f : ℕ) : Prop := FrameOverlaps f 0x100000 (0x100000 + frameCount / 8)

/-- The bitmap occupies the frames 256 and 257. -/
lemma overlapsBitmap_iff {f : ℕ} : OverlapsBitmap f ↔ f = 256 ∨ f = 257 := by
  simp only [OverlapsBitmap, FrameOverlaps, frameCount]
  constructor
  · rintro ⟨x, rfl, hlo, hhi⟩
    omega
  · rintro (rfl | rfl)
    · exact ⟨0x100000, by norm_num⟩
    · exact ⟨0x101000, by norm_num⟩

/-- The address of the entry `e` of the page table in the frame `f`. -/
def entryAddr (f e : ℕ) : BitVec 32 := wordAddr (frameAddr f) e

section

variable {f f' e e' : ℕ} (hf : f < frameCount) (he : e < 1024)

include hf he

lemma toNat_entryAddr : (entryAddr f e).toNat = 4096 * f + 4 * e := by
  have hf' : f < 65536 := hf
  have haddr := toNat_frameAddr hf
  rw [entryAddr, toNat_wordAddr (by omega), haddr]

/-- Different entries, of one table or of two, are apart. -/
lemma entryAddr_apart (hf' : f' < frameCount) (he' : e' < 1024) (hne : f ≠ f' ∨ e ≠ e') :
    WordsApart (entryAddr f e) (entryAddr f' e') := by
  have h1 : f < 65536 := hf
  have h2 : f' < 65536 := hf'
  have ha := toNat_entryAddr hf he
  have ha' := toNat_entryAddr hf' he'
  rcases Nat.lt_or_ge (4096 * f + 4 * e) (4096 * f' + 4 * e') with h | h
  · exact wordsApart_of_le (by omega) (by omega)
  · exact (wordsApart_of_le (by omega) (by omega)).symm

/-- The entries of a table that does not overlap the bitmap are off the bitmap. -/
lemma entryAddr_offBitmap {s : MemoryState} (hs : BitmapReady s) (hoff : ¬ OverlapsBitmap f) :
    OffBitmap s (entryAddr f e) := by
  intro i hi
  have h1 : f < 65536 := hf
  have ha := toNat_entryAddr hf he
  have hw : (wordAddr s.frames i).toNat = 0x100000 + 4 * i := by
    rw [hs.frames_eq, toNat_wordAddr]
    · rfl
    · change 0x100000 + 4 * i < 2 ^ 32
      omega
  rw [overlapsBitmap_iff, not_or] at hoff
  rcases Nat.lt_or_ge f 256 with h | h
  · exact (wordsApart_of_le (by omega) (by omega)).symm
  · exact wordsApart_of_le (by omega) (by omega)

/-- The entries of another table are off a table. -/
lemma entryAddr_offTable (hf' : f' < frameCount) (hne : f' ≠ f) :
    OffTable (frameAddr f') (entryAddr f e) := by
  intro j hj
  exact entryAddr_apart hf' hj hf he (Or.inl hne)

end

lemma frameAddr_ne_null {k : ℕ} (hk : k < frameCount) (hk0 : k ≠ 0) : frameAddr k ≠ NULL := by
  intro h0
  have hzero := congrArg BitVec.toNat h0
  rw [toNat_frameAddr hk] at hzero
  exact hk0 (by simpa [NULL] using hzero)

/-- States with the same bitmap words have the same marked frames. -/
lemma markedFrames_congr {s t : MemoryState}
    (h : ∀ i < 2048, frameWord t i = frameWord s i) : markedFrames t = markedFrames s := by
  ext k
  rw [mem_markedFrames, mem_markedFrames]
  refine and_congr_right fun hk => ?_
  have hk' : k < 65536 := hk
  rw [frameBit, frameBit, h (k / 32) (by omega)]

/-- Storing a word off the bitmap leaves the marked frames alone. -/
lemma markedFrames_store {s : MemoryState} {a : BitVec 32} (v : BitVec 32) (ha : OffBitmap s a) :
    markedFrames { s with mem := store32 s.mem a v } = markedFrames s :=
  markedFrames_congr fun i hi => load32_store32_of_apart _ _ (ha i hi).symm

/-- Clearing a table off the bitmap leaves the marked frames alone. -/
lemma markedFrames_newTableState {s : MemoryState} (hs : BitmapReady s) (d : DirPtr)
    (i : Fin 1024) (flags : BitVec 32) {f : ℕ} (hf : f < frameCount) (hoff : ¬ OverlapsBitmap f) :
    markedFrames (newTableState d i (frameAddr f) flags s) = markedFrames s := by
  refine markedFrames_congr fun k hk => ?_
  refine load32_clearTableMem_of_off s.mem ?_ le_rfl
  intro j hj
  exact (entryAddr_offBitmap hf hj hs hoff k hk).symm

lemma BitmapReady.newTableState {s : MemoryState} (h : BitmapReady s) (d : DirPtr) (i : Fin 1024)
    (table flags : BitVec 32) : BitmapReady (newTableState d i table flags s) :=
  ⟨h.frames_eq, h.nFrames_eq⟩

lemma BitmapReady.fillState {s : MemoryState} (h : BitmapReady s) (a phys flags : BitVec 32) :
    BitmapReady (fillState a phys flags s) := ⟨h.frames_eq, h.nFrames_eq⟩

/-- Writing an entry of a table off the bitmap leaves the marked frames alone. -/
lemma markedFrames_fillState {s : MemoryState} (hs : BitmapReady s) {f e : ℕ} (hf : f < frameCount)
    (hoff : ¬ OverlapsBitmap f) (he : e < 1024) (phys flags : BitVec 32) :
    markedFrames (fillState (entryAddr f e) phys flags s) = markedFrames s :=
  markedFrames_store _ (entryAddr_offBitmap hf he hs hoff)

lemma entryIndex_lt (virt : BitVec 32) : entryIndex virt < 1024 := Nat.mod_lt _ (by norm_num)

section MapPage

variable {s t : MemoryState} {d : DirPtr} {virt phys flags : BitVec 32} {k : ℕ}
  (ht : t = (mapPage d virt phys flags).exec s)

include ht

lemma mapPage_ready (hs : BitmapReady s) : BitmapReady t := by
  by_cases hnull : (s.dirs d).tables (tableIndex virt) = NULL
  · have hready := (allocFrame_bitmapOnly hs).ready hs
    rw [ht, exec_mapPage_of_null phys flags hnull]
    exact (hready.newTableState _ _ _ _).fillState _ _ _
  · rw [ht, exec_mapPage_of_table phys flags rfl hnull]
    exact hs.fillState _ _ _

/-- `map_page` changes memory and page directories, and nothing else. -/
lemma mapPage_rest (hs : BitmapReady s) : t = { s with mem := t.mem, dirs := t.dirs } := by
  by_cases hnull : (s.dirs d).tables (tableIndex virt) = NULL
  · have hrest := (allocFrame_bitmapOnly hs).rest
    rw [ht, exec_mapPage_of_null phys flags hnull]
    generalize allocFrame.exec s = u at hrest ⊢
    rw [hrest]
    rfl
  · rw [ht, exec_mapPage_of_table phys flags rfl hnull]
    rfl

/-- The frame taken for a page table is marked, and no other. -/
lemma mapPage_markedFrames_of_null (hs : BitmapReady s)
    (hnull : (s.dirs d).tables (tableIndex virt) = NULL)
    (hleast : leastFree frameCount (markedFrames s) = some k) (hoff : ¬ OverlapsBitmap k) :
    markedFrames t = insert k (markedFrames s) := by
  have hk : k < frameCount := (leastFree_eq_some_iff.mp hleast).1
  have hready := (allocFrame_bitmapOnly hs).ready hs
  rw [ht, exec_mapPage_of_null phys flags hnull, (allocFrame_of_least hs hleast).1, ← entryAddr,
    markedFrames_fillState (hready.newTableState _ _ _ _) hk hoff (entryIndex_lt virt),
    markedFrames_newTableState hready d _ flags hk hoff, markedFrames_allocFrame hs hleast]

lemma mapPage_tables_of_null (hs : BitmapReady s)
    (hnull : (s.dirs d).tables (tableIndex virt) = NULL)
    (hleast : leastFree frameCount (markedFrames s) = some k) (d' : DirPtr) (i' : Fin 1024) :
    (t.dirs d').tables i' =
      if d' = d ∧ i' = tableIndex virt then frameAddr k else (s.dirs d').tables i' := by
  rw [ht, tables_mapPage, (allocFrame_of_least hs hleast).1]
  simp only [hnull, true_and]

/-- With an existing table in a frame off the bitmap, no mark and no pointer changes. -/
lemma mapPage_of_table {f : ℕ} (hs : BitmapReady s)
    (htable : (s.dirs d).tables (tableIndex virt) = frameAddr f) (hne : frameAddr f ≠ NULL)
    (hf : f < frameCount) (hoff : ¬ OverlapsBitmap f) :
    markedFrames t = markedFrames s ∧ t.dirs = s.dirs := by
  rw [ht, exec_mapPage_of_table phys flags htable hne, ← entryAddr]
  exact ⟨markedFrames_fillState hs hf hoff (entryIndex_lt virt) phys flags, rfl⟩

end MapPage

/-- A call changes memory, page directories and the position of the heap; everything else stays as
it is, the control registers and the place of the directories among it. -/
lemma Client.step_rest {c : Client} (h : BitmapReady c.st) (call : Call) :
    ∃ m dirs position, (Client.step call c).st =
      { c.st with mem := m, dirs := dirs, heapPosition := position } := by
  cases call with
  | allocFrame =>
    have hst : (Client.step .allocFrame c).st = VVBright.allocFrame.exec c.st := by
      rw [Client.step]
      split <;> rfl
    rw [hst, (allocFrame_bitmapOnly h).rest]
    exact ⟨_, _, _, rfl⟩
  | freeFrame p =>
    change ∃ m dirs position, (VVBright.freeFrame p).exec c.st = _
    rw [VVBright.freeFrame, exec_clearFrame]
    exact ⟨_, _, _, rfl⟩
  | mapPage d virt phys flags =>
    obtain ⟨t, ht⟩ : ∃ t, t = (VVBright.mapPage d virt phys flags).exec c.st := ⟨_, rfl⟩
    rw [Client.step, ← ht, mapPage_rest ht h]
    exact ⟨_, _, _, rfl⟩
  | kmalloc size =>
    obtain ⟨position, hexec⟩ := exists_exec_kmalloc size c.st
    rw [Client.step, hexec]
    exact ⟨_, _, _, rfl⟩
  | kfree ptr => exact ⟨_, _, _, rfl⟩

/-- The bitmap stays where it is, whatever is called. -/
lemma ready_step {c : Client} (h : BitmapReady c.st) (call : Call) :
    BitmapReady (Client.step call c).st := by
  obtain ⟨m, dirs, position, hst⟩ := Client.step_rest h call
  rw [hst]
  exact ⟨h.frames_eq, h.nFrames_eq⟩

/-- With flags below `0x1000` the directory word of a table names the page of the table. -/
lemma directoryWord_page (table : BitVec 32) {flags : BitVec 32} (hflags : flags.toNat < 0x1000) :
    (table ||| flags ||| 0x01#32).toNat / 4096 = table.toNat / 4096 := by
  have hshift : (table ||| flags ||| 0x01#32) >>> 12 = table >>> 12 := by
    have hzero : flags >>> 12 = 0#32 := by
      apply BitVec.eq_of_toNat_eq
      rw [BitVec.toNat_ushiftRight, Nat.shiftRight_eq_div_pow, BitVec.toNat_ofNat]
      omega
    rw [BitVec.ushiftRight_or_distrib, BitVec.ushiftRight_or_distrib, hzero, BitVec.or_zero]
    exact BitVec.or_zero
  have h := congrArg BitVec.toNat hshift
  rwa [BitVec.toNat_ushiftRight, BitVec.toNat_ushiftRight, Nat.shiftRight_eq_div_pow,
    Nat.shiftRight_eq_div_pow] at h

/-- The directory word of a table names its frame. -/
lemma directoryWord_frame {f : ℕ} (hf : f < frameCount) {flags : BitVec 32}
    (hflags : flags.toNat < 0x80) : (frameAddr f ||| flags ||| 0x01#32).toNat / 4096 = f := by
  rw [directoryWord_page _ (by omega), toNat_frameAddr hf]
  omega

/-- The directory word of a new table is present. -/
lemma directoryWord_present (table flags : BitVec 32) :
    (table ||| flags ||| 0x01#32).getLsbD 0 = true := by
  simp

end VVBright
