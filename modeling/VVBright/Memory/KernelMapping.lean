import VVBright.Memory.Init
import VVBright.Memory.Permissions

/-!
# The kernel mapping

What `paging_init` is meant to leave: the first 4 MB are mapped to themselves, writable and for the
kernel only, nothing else is mapped, and every marked frame holds a page table of the kernel
directory.

The first page table the loop takes is frame 0, whose address is the null pointer.  The second
round takes the slot for empty and replaces that table, so the first page is lost and frame 0 stays
marked without being used; `pagingInit_kernelMapping` says that this is all that goes wrong.
-/

namespace VVBright

open Traced

/-- The kernel directory treats the address `v` as it should: below 4 MB it is mapped to itself,
writable and not user-accessible; above it is not present. -/
def MapsAsKernel (t : MemoryState) (v : BitVec 32) : Prop :=
  if v.toNat < 0x400000 then
    pageWalk t.mem (t.dirs kernelDirectory) v = some v ∧
      Writable t.mem (t.dirs kernelDirectory) v ∧
      ¬ UserAccessible t.mem (t.dirs kernelDirectory) v
  else
    pageWalk t.mem (t.dirs kernelDirectory) v = none

/-- The kernel directory refers to a page table in the frame `f`. -/
def OwnsFrame (t : MemoryState) (f : ℕ) : Prop :=
  ∃ i, (t.dirs kernelDirectory).tables i ≠ NULL ∧ frameOf ((t.dirs kernelDirectory).tables i) = f

/-- What `paging_init` is meant to leave. -/
structure KernelMapping (t : MemoryState) : Prop where
  maps : ∀ v, MapsAsKernel t v
  owns : ∀ f ∈ markedFrames t, OwnsFrame t f

section

variable {s t : MemoryState} (h : PagingSetUp 1024 s t)

include h

lemma PagingSetUp.maps_above {v : BitVec 32} (hv : ¬ v.toNat < 0x400000) :
    pageWalk t.mem (t.dirs kernelDirectory) v = none := by
  have hslot : tableIndex v ≠ 0 := fun h0 => hv (tableIndex_eq_zero_iff.mp h0)
  exact pageWalk_of_absent (by rw [h.words_eq _ hslot]; rfl)

/-- Below 4 MB the processor reads the entries of the table in frame 1. -/
lemma PagingSetUp.walkEntry_eq {v : BitVec 32} (hv : v.toNat < 0x400000) :
    tableIndex v = 0 ∧
      walkEntry t.mem (t.dirs kernelDirectory) v = load32 t.mem (entryAddr 1 (v.toNat / 4096)) ∧
      pageWalk t.mem (t.dirs kernelDirectory) v =
        entryTarget (load32 t.mem (entryAddr 1 (v.toNat / 4096))) v := by
  have hslot : tableIndex v = 0 := tableIndex_eq_zero_iff.mpr hv
  have hentry := entryIndex_of_lt hv
  refine ⟨hslot, ?_, ?_⟩
  · rw [walkEntry, hslot, h.word, hentry]
    rfl
  · rw [pageWalk_of_frame (f := 1), hentry, entryAddr]
    · rw [hslot, h.word]
      rfl
    · rw [hslot, h.word]
      rfl

/-- The address is treated as it should be exactly when it is not in the first page. -/
theorem PagingSetUp.mapsAsKernel_iff (v : BitVec 32) : MapsAsKernel t v ↔ 0x1000 ≤ v.toNat := by
  rw [MapsAsKernel]
  by_cases hv : v.toNat < 0x400000
  · obtain ⟨hslot, hentry, hwalk⟩ := h.walkEntry_eq hv
    rw [if_pos hv, hwalk, Writable, UserAccessible, Permits, Permits, hentry, hslot, h.word]
    by_cases hpage : v.toNat / 4096 = 0
    · -- the entry of the first page is clear
      rw [hpage, h.unmapped 0 (by norm_num) (Or.inl rfl), entryTarget_clearedEntry]
      exact iff_of_false (fun hcon => Option.some_ne_none v hcon.1.symm) (by omega)
    · have haddr := toNat_frameAddr (show v.toNat / 4096 < frameCount by rw [frameCount]; omega)
      have htarget : BitVec.ofNat 32
          ((frameAddr (v.toNat / 4096)).toNat / 4096 * 4096 + v.toNat % 4096) = v := by
        rw [haddr]
        apply BitVec.eq_of_toNat_eq
        rw [BitVec.toNat_ofNat]
        omega
      obtain ⟨hrw, -⟩ := filledEntry_permissions (frameAddr (v.toNat / 4096)) 0x03#32 clearedEntry
      rw [h.mapped _ (by omega) (by omega), entryTarget_filledEntry, htarget, hrw]
      exact iff_of_true ⟨rfl, ⟨by decide, by decide⟩, fun huser => absurd huser.1 (by decide)⟩
        (by omega)
  · rw [if_neg hv]
    exact iff_of_true (h.maps_above hv) (by omega)

/-- Of the two marked frames only frame 1 holds a page table. -/
theorem PagingSetUp.ownsFrame_iff {f : ℕ} (hf : f ∈ markedFrames t) : OwnsFrame t f ↔ f ≠ 0 := by
  rw [h.marked, Finset.mem_range] at hf
  have hone : 1 < frameCount := by norm_num [frameCount]
  constructor
  · rintro ⟨i, hne, rfl⟩
    have hi : i = 0 := by
      by_contra hi
      exact hne (h.tables_eq i hi)
    rw [hi, h.table, frameOf_frameAddr hone]
    norm_num
  · intro hf0
    refine ⟨0, ?_, ?_⟩
    · rw [h.table]
      exact frameAddr_ne_null hone (by norm_num)
    · rw [h.table, frameOf_frameAddr hone]
      omega

/-- The first page and frame 0 keep the mapping from being what it should be. -/
lemma PagingSetUp.not_kernelMapping : ¬ KernelMapping t := by
  intro hmap
  have hzero := (h.mapsAsKernel_iff 0#32).mp (hmap.maps 0#32)
  exact absurd hzero (by decide)

end

/-- **`paging_init` maps the first 4 MB but for the first page.**  Whatever memory and the kernel
directory held before, `paging_init` does not leave what it is meant to leave; the addresses it
treats wrongly are exactly those below `0x1000`, and the one marked frame that holds no page table
is frame 0. -/
theorem pagingInit_kernelMapping (s : MemoryState) :
    ¬ KernelMapping (pagingInit.exec s) ∧
      (∀ v, MapsAsKernel (pagingInit.exec s) v ↔ 0x1000 ≤ v.toNat) ∧
      0 ∈ markedFrames (pagingInit.exec s) ∧
      ∀ f ∈ markedFrames (pagingInit.exec s), OwnsFrame (pagingInit.exec s) f ↔ f ≠ 0 := by
  have hsetup := (pagingInit_spec s).1
  refine ⟨hsetup.not_kernelMapping, hsetup.mapsAsKernel_iff, ?_, ?_⟩
  · rw [hsetup.marked]
    decide
  · exact fun f hf => hsetup.ownsFrame_iff hf

/-- On a machine with all memory zero, address 0 is not mapped, and frame 0 is marked but not
used. -/
theorem not_kernelMapping_blankState :
    pageWalk (pagingInit.exec blankState).mem ((pagingInit.exec blankState).dirs kernelDirectory)
        0#32 = none ∧
      0 ∈ markedFrames (pagingInit.exec blankState) ∧ ¬ OwnsFrame (pagingInit.exec blankState) 0 ∧
      ¬ KernelMapping (pagingInit.exec blankState) := by
  have hsetup := (pagingInit_spec blankState).1
  have hmarked : 0 ∈ markedFrames (pagingInit.exec blankState) := by
    rw [hsetup.marked]
    decide
  refine ⟨?_, hmarked, ?_, hsetup.not_kernelMapping⟩
  · rw [(hsetup.walkEntry_eq (v := 0#32) (by decide)).2.2]
    rw [show (0#32).toNat / 4096 = 0 from rfl, hsetup.unmapped 0 (by norm_num) (Or.inl rfl),
      entryTarget_clearedEntry]
  · rw [hsetup.ownsFrame_iff hmarked]
    simp

end VVBright
