import VVBright.Memory.Init

/-!
# `paging_init` and the kernel image

`linker.ld` places the image from 1 MB on, `.text` first, and `paging_init` places the frame bitmap
at 1 MB as well.  `paging_init` leaves all memory from the end of the bitmap on alone, and every
byte of the bitmap has a definite value afterwards: the frames 0 and 1 are marked and no others.  So
the code survives exactly when the part of it that lies under the bitmap had these values from the
start (`pagingInit_kept_iff`).
-/

namespace VVBright

open Traced

/-! ## The image -/

/-- A section of the image. -/
structure ImageSection where
  /-- The address of the first byte. -/
  start : ℕ
  /-- The address after the last byte. -/
  stop : ℕ
  start_le : start ≤ stop

/-- The address lies in the section. -/
def ImageSection.Contains (sec : ImageSection) (x : BitVec 32) : Prop :=
  sec.start ≤ x.toNat ∧ x.toNat < sec.stop

/-- A kernel image laid out by `linker.ld`: `.text` at 1 MB, then `.rodata`, `.data` and `.bss`,
of any sizes that fit below 2 MB. -/
structure KernelImage where
  text : ImageSection
  rodata : ImageSection
  data : ImageSection
  bss : ImageSection
  text_start : text.start = 0x100000
  text_nonempty : text.start < text.stop
  rodata_after : text.stop ≤ rodata.start
  data_after : rodata.stop ≤ data.start
  bss_after : data.stop ≤ bss.start
  below : bss.stop ≤ 0x200000

/-- The address is that of a byte of `.text` or `.rodata`. -/
def KernelImage.ReadOnly (image : KernelImage) (x : BitVec 32) : Prop :=
  image.text.Contains x ∨ image.rodata.Contains x

/-- The bytes of `.text` and `.rodata` are the same in `s` and `t`. -/
def KernelImage.Kept (image : KernelImage) (s t : MemoryState) : Prop :=
  ∀ x, image.ReadOnly x → t.mem x = s.mem x

lemma KernelImage.ReadOnly.le {image : KernelImage} {x : BitVec 32} (h : image.ReadOnly x) :
    0x100000 ≤ x.toNat := by
  have hstart := image.text_start
  have htext := image.text_nonempty
  have hrodata := image.rodata_after
  rcases h with h | h
  · exact hstart ▸ h.1
  · have := h.1
    omega

/-! ## Memory above the bitmap -/

section

variable {a : BitVec 32} (ha : 0x102000 ≤ a.toNat) (ha' : a.toNat + 4 ≤ 2 ^ 32)

include ha ha'

lemma offBitmap_of_above {s : MemoryState} (hs : BitmapReady s) : OffBitmap s a := by
  intro i hi
  have haddr : (wordAddr 0x100000#32 i).toNat = 0x100000 + 4 * i :=
    toNat_wordAddr (by change 0x100000 + 4 * i < _; omega)
  rw [hs.frames_eq]
  exact wordsApart_of_le (by omega) ha'

lemma offTable_of_above {k : ℕ} (hk : k < 256) : OffTable (frameAddr k) a := by
  intro j hj
  have haddr := toNat_entryAddr (show k < frameCount by rw [frameCount]; omega) hj
  rw [entryAddr] at haddr
  exact wordsApart_of_le (by omega) ha'

/-- A round of the identity mapping that takes the frame `k` for its page table. -/
lemma load32_identityMap_of_null {s : MemoryState} (hs : BitmapReady s) {i k : ℕ} (hi : i < 1024)
    (hnull : (s.dirs kernelDirectory).tables 0 = NULL)
    (hleast : leastFree frameCount (markedFrames s) = some k) (hk : k < 256) :
    load32 ((identityMap i).exec s).mem a = load32 s.mem a := by
  have hindex := tableIndex_frameAddr hi
  have hoff := offTable_of_above ha ha' hk
  rw [identityMap_eq, exec_mapPage_of_null _ _ (by rw [hindex]; exact hnull), mem_fillState,
    mem_newTableState, (allocFrame_of_least hs hleast).1, entryIndex_frameAddr hi,
    load32_store32_of_apart _ _ (hoff i hi), load32_clearTableMem_of_off _ hoff le_rfl,
    (allocFrame_bitmapOnly hs).off a (offBitmap_of_above ha ha' hs)]

/-- A later round writes to the page table in frame 1 only. -/
lemma PagingSetUp.load32_identityMap {n : ℕ} {s t : MemoryState} (h : PagingSetUp n s t)
    (hn : n < 1024) : load32 ((VVBright.identityMap n).exec t).mem a = load32 t.mem a := by
  have htable : (t.dirs kernelDirectory).tables (tableIndex (frameAddr n)) = frameAddr 1 := by
    rw [tableIndex_frameAddr hn, h.table]
  have hne : frameAddr 1 ≠ NULL := frameAddr_ne_null (by norm_num [frameCount]) (by norm_num)
  rw [identityMap_eq, exec_mapPage_of_table _ _ htable hne, mem_fillState, entryIndex_frameAddr hn,
    load32_store32_of_apart _ _ (offTable_of_above ha ha' (by norm_num) n hn)]

/-- The first two rounds. -/
lemma PagingCleared.load32_two {s u : MemoryState} (h : PagingCleared s u) :
    load32 ((forLoop 2 identityMap).exec u).mem a = load32 u.mem a := by
  obtain ⟨v, hv⟩ : ∃ v, v = (identityMap 0).exec u := ⟨_, rfl⟩
  obtain ⟨hready, -, hleast, htables, -⟩ := identityMap_zero h.ready h.unmarked h.slots hv
  have hleast₀ : leastFree frameCount (markedFrames u) = some 0 := by
    rw [h.unmarked, ← Finset.range_zero]
    exact leastFree_range (by norm_num [frameCount])
  have hnull : (v.dirs kernelDirectory).tables 0 = NULL := by rw [htables, (h.slots 0).1]
  rw [exec_forLoop_succ, exec_forLoop_succ, exec_forLoop_zero, ← hv,
    load32_identityMap_of_null ha ha' hready (by norm_num) hnull hleast (by norm_num), hv,
    load32_identityMap_of_null ha ha' h.ready (by norm_num) (h.slots 0).1 hleast₀ (by norm_num)]

/-- The identity mapping leaves the words above the bitmap alone. -/
lemma PagingCleared.load32_loop {s u t : MemoryState} (h : PagingCleared s u) {n : ℕ} (hn : 2 ≤ n)
    (hn' : n ≤ 1024) (ht : t = (forLoop n identityMap).exec u) :
    load32 t.mem a = load32 u.mem a := by
  induction n, hn using Nat.le_induction generalizing t with
  | base => rw [ht, h.load32_two ha ha']
  | succ n hn ih =>
    have hsetup := h.setUp (t := (forLoop n identityMap).exec u) hn (by omega) rfl
    rw [ht, exec_forLoop_succ, hsetup.load32_identityMap ha ha' (by omega)]
    exact ih (by omega) rfl

/-- `paging_init` leaves the words above the bitmap alone. -/
lemma load32_pagingInit (s : MemoryState) :
    load32 (pagingInit.exec s).mem a = load32 s.mem a := by
  obtain ⟨u, t, hcleared, ht, hexec⟩ := pagingInit_stages s
  have hmem : (pagingEnabled t).mem = t.mem := rfl
  rw [hexec, hmem, hcleared.load32_loop ha ha' (by norm_num) le_rfl ht,
    hcleared.off a (offBitmap_of_above ha ha' hcleared.ready)]

end

/-- `paging_init` leaves the bytes above the bitmap alone. -/
theorem mem_pagingInit_of_above (s : MemoryState) {x : BitVec 32} (hx : 0x102000 ≤ x.toNat) :
    (pagingInit.exec s).mem x = s.mem x := by
  have hlt := x.isLt
  have haddr : (BitVec.ofNat 32 (x.toNat / 4 * 4)).toNat = x.toNat / 4 * 4 := by
    rw [BitVec.toNat_ofNat]
    omega
  apply byte_eq_of_load32_eq (a := BitVec.ofNat 32 (x.toNat / 4 * 4))
  · exact load32_pagingInit (by omega) (by omega) s
  · bv_omega

/-! ## The bytes of the bitmap -/

/-- The byte of the bitmap at `x` when the frames 0 and 1 are marked and no others. -/
def bitmapByte (x : BitVec 32) : BitVec 8 := if x = 0x100000#32 then 0x03#8 else 0x00#8

section

variable {n : ℕ} {s t : MemoryState} (h : PagingSetUp n s t)

include h

lemma PagingSetUp.frameBit_eq {k : ℕ} (hk : k < frameCount) : frameBit t k = decide (k < 2) := by
  have hmem := mem_markedFrames (s := t) (k := k)
  rw [h.marked, Finset.mem_range] at hmem
  rw [Bool.eq_iff_iff, decide_eq_true_iff]
  exact ⟨fun hbit => hmem.mpr ⟨hk, hbit⟩, fun hlt => (hmem.mp hlt).2⟩

lemma PagingSetUp.frameWord_eq {i : ℕ} (hi : i < 2048) :
    frameWord t i = if i = 0 then 0x03#32 else 0#32 := by
  apply BitVec.eq_of_getLsbD_eq
  intro j hj
  have hbit := h.frameBit_eq (k := 32 * i + j) (by rw [frameCount]; omega)
  rw [frameBit, show (32 * i + j) / 32 = i by omega, show (32 * i + j) % 32 = j by omega] at hbit
  rw [hbit]
  split
  · rename_i hi0
    subst hi0
    interval_cases j <;> rfl
  · rw [BitVec.getLsbD_zero, decide_eq_false_iff_not]
    omega

/-- The bitmap marks the frames 0 and 1, byte by byte. -/
theorem PagingSetUp.mem_eq_bitmapByte {x : BitVec 32} (hlo : 0x100000 ≤ x.toNat)
    (hhi : x.toNat < 0x102000) : t.mem x = bitmapByte x := by
  obtain ⟨i, k, hi, hk, hx⟩ : ∃ i k, i < 2048 ∧ k < 4 ∧ x.toNat = 0x100000 + 4 * i + k :=
    ⟨(x.toNat - 0x100000) / 4, (x.toNat - 0x100000) % 4, by omega, by omega, by omega⟩
  have haddr : x = wordAddr t.frames i + BitVec.ofNat 32 k := by
    rw [h.ready.frames_eq, wordAddr]
    bv_omega
  have hbyte : t.mem x = (frameWord t i).extractLsb' (8 * k) 8 := by
    rw [haddr]
    exact (extractLsb'_load32 t.mem (wordAddr t.frames i) hk).symm
  rw [hbyte, h.frameWord_eq hi, bitmapByte]
  by_cases hi0 : i = 0
  · subst hi0
    rw [if_pos rfl]
    interval_cases k
    · rw [if_pos (by bv_omega)]
      decide
    all_goals
      rw [if_neg (by bv_omega)]
      decide
  · rw [if_neg hi0, if_neg (by bv_omega)]
    simp

end

/-! ## The code under the bitmap -/

/-- **When `paging_init` leaves the code alone.**  For every image laid out by `linker.ld` and every
initial memory, `paging_init` leaves the bytes of `.text` and `.rodata` unchanged if and only if
those of them below `0x102000` already hold what the bitmap will hold: 3 at `0x100000`, the first
byte of `.text`, and 0 elsewhere. -/
theorem pagingInit_kept_iff (image : KernelImage) (s : MemoryState) :
    image.Kept s (pagingInit.exec s) ↔
      ∀ x, image.ReadOnly x → x.toNat < 0x102000 → s.mem x = bitmapByte x := by
  have hsetup := (pagingInit_spec s).1
  constructor
  · intro hkept x hx hlt
    rw [← hkept x hx, hsetup.mem_eq_bitmapByte hx.le hlt]
  · intro hbytes x hx
    rcases Nat.lt_or_ge x.toNat 0x102000 with hlt | hge
    · rw [hsetup.mem_eq_bitmapByte hx.le hlt, hbytes x hx hlt]
    · exact mem_pagingInit_of_above s hge

/-- An image with 16 KB of `.text` and 4 KB in each of the other sections. -/
def sampleImage : KernelImage where
  text := ⟨0x100000, 0x104000, by norm_num⟩
  rodata := ⟨0x104000, 0x105000, by norm_num⟩
  data := ⟨0x105000, 0x106000, by norm_num⟩
  bss := ⟨0x106000, 0x107000, by norm_num⟩
  text_start := rfl
  text_nonempty := by norm_num
  rodata_after := le_rfl
  data_after := le_rfl
  bss_after := le_rfl
  below := by norm_num

/-- In memory that is zero everywhere the first byte of `.text` becomes 3. -/
theorem not_kept_sampleImage :
    sampleImage.ReadOnly 0x100000#32 ∧ blankState.mem 0x100000#32 = 0#8 ∧
      (pagingInit.exec blankState).mem 0x100000#32 = 0x03#8 ∧
      ¬ sampleImage.Kept blankState (pagingInit.exec blankState) := by
  have hsetup := (pagingInit_spec blankState).1
  have hread : sampleImage.ReadOnly 0x100000#32 := Or.inl ⟨by decide, by decide⟩
  have hbyte : (pagingInit.exec blankState).mem 0x100000#32 = 0x03#8 :=
    hsetup.mem_eq_bitmapByte (by decide) (by decide)
  refine ⟨hread, rfl, hbyte, fun hkept => ?_⟩
  have hsame := hkept _ hread
  rw [hbyte] at hsame
  exact absurd hsame (by decide)

end VVBright
