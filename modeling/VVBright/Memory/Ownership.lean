import VVBright.Foundation.Accounts
import VVBright.Memory.HeapRuns
import VVBright.Memory.Reachable

/-!
# Who owns which memory

Five parties share physical memory: the frame bitmap, the kernel directory, the page tables of all
directories, the frames handed out to the client and the blocks cut from the heap.  `Separated` says
that they keep apart, and that the bitmap marks a frame for exactly one reason: it is frame 0, or
the client holds it, or it is a page table.  No frame is leaked and none is used twice.

This lasts for a whole run if some frame below 1 MB is free whenever one is asked for and no heap
request wraps around.  Under these conditions the manager also keeps its hands off what it has given
away: no call changes a byte that the client owns (`OwnInv.mem_step`).  All of this speaks of
physical memory, while `memory_init` has enabled paging.  So the runs must not map pages of the
first 4 MB anew, and the linker must have aligned the kernel directory (`KernelLinked`); then every
pointer of the manager still means the physical address it holds (`OwnInv.accesses`).
-/

namespace VVBright

open Traced

/-- The byte at `x` belongs to the client: it lies in a frame the client holds or in a block the
client was given. -/
def Client.Owns (c : Client) (x : BitVec 32) : Prop :=
  c.Holds x ∨ ∃ b ∈ c.blocks, b.1.toNat ≤ x.toNat ∧ x.toNat < b.1.toNat + b.2.toNat

/-- The frame of the page table in a slot of a directory.  An empty slot counts as frame 0. -/
def tableFrame (s : MemoryState) (slot : DirPtr × Fin 1024) : ℕ :=
  frameOf ((s.dirs slot.1).tables slot.2)

/-- Every marked frame but frame 0 is held by the client or is the page table of one slot. -/
def FramesAccounted (c : Client) : Prop :=
  Accounts (c.held.map frameOf) (tableFrame c.st) (markedFrames c.st)

/-- The byte at `x` belongs to the kernel directory. -/
def InKernelDirectory (s : MemoryState) (x : BitVec 32) : Prop :=
  (s.dirAddr kernelDirectory).val.toNat ≤ x.toNat ∧
    x.toNat < (s.dirAddr kernelDirectory).val.toNat + 10240

/-- The bitmap, the kernel directory, the page tables, the held frames and the heap blocks keep
apart. -/
structure Separated (c : Client) : Prop where
  /-- The blocks lie inside the heap and do not overlap. -/
  blocks : HeapSound c
  /-- Held frames are away from the bitmap and the heap. -/
  held_unused : ∀ q ∈ c.held, ¬ InUse (frameOf q)
  /-- Page tables are away from the bitmap and the heap. -/
  tables_unused : ∀ slot, ¬ InUse (tableFrame c.st slot)
  /-- The kernel directory is off the bitmap, and neither a page table nor the client's. -/
  directory : ∀ x, InKernelDirectory c.st x →
    ¬ OverlapsBitmap (frameOf x) ∧ (∀ slot, frameOf x ≠ tableFrame c.st slot) ∧ ¬ c.Owns x
  /-- Every marked frame but frame 0 has one owner. -/
  accounts : FramesAccounted c

/-- Where the kernel directory has to be: on a page boundary, between the bitmap and the heap. -/
structure KernelLinked (s : MemoryState) : Prop where
  aligned : DirAligned s kernelDirectory
  above_bitmap : 0x102000 ≤ (s.dirAddr kernelDirectory).val.toNat
  below_heap : (s.dirAddr kernelDirectory).val.toNat + 10240 ≤ 0x200000

/-- The call maps no page of the first 4 MB of the kernel directory. -/
def MapsAbove : Call → Prop
  | .mapPage d virt _ _ => d = kernelDirectory → 0x400000 ≤ virt.toNat
  | _ => True

/-- What may happen in a run: the client frees only what it holds and maps no page of the first
4 MB anew, some frame below 1 MB is free when a frame is asked for, and no request to the heap wraps
around. -/
def OwnerCall (call : Call) (c : Client) : Prop :=
  ManagerCall call c ∧ MapsAbove call ∧ SeesLowFrame call c ∧
    ∀ size, call = .kmalloc size → NoWrap (.kmalloc size) c

/-- The invariant of such runs. -/
structure OwnInv (c : Client) : Prop where
  low : LowInv c
  heap : HeapInv c
  accounts : FramesAccounted c
  linked : KernelLinked c.st
  mapped : IdentityMapped c.st
  /-- The page table of the first 4 MB is in frame 1. -/
  table : (c.st.dirs kernelDirectory).tables 0 = frameAddr 1

section

variable {c : Client}

/-- A slot names a frame below 1 MB, which is frame 0 exactly when the slot is empty. -/
lemma LowInv.exists_tableFrame (h : LowInv c) (slot : DirPtr × Fin 1024) :
    tableFrame c.st slot < 256 ∧
      (c.st.dirs slot.1).tables slot.2 = frameAddr (tableFrame c.st slot) := by
  obtain ⟨f, hf, htable⟩ := h.tables slot.1 slot.2
  have hframe : tableFrame c.st slot = f := by
    rw [tableFrame, htable, frameOf_frameAddr (by rw [frameCount]; omega)]
  rw [hframe]
  exact ⟨hf, htable⟩

/-- An address in a held frame is below 1 MB. -/
lemma LowInv.lt_of_holds (h : LowInv c) {p : BitVec 32} (hp : c.Holds p) : p.toNat < 2 ^ 28 := by
  obtain ⟨q, hq, hqp⟩ := hp
  have hlt := h.held q hq
  rw [hqp, frameOf] at hlt
  omega

/-- The heap does not notice calls that leave its variables and the blocks alone. -/
lemma HeapInv.congr {c' : Client} (h : HeapInv c) (hblocks : c'.blocks = c.blocks)
    (hstart : c'.st.heapStart = c.st.heapStart) (hend : c'.st.heapEnd = c.st.heapEnd)
    (hposition : c'.st.heapPosition = c.st.heapPosition) : HeapInv c' where
  start_eq := hstart.trans h.start_eq
  end_eq := hend.trans h.end_eq
  start_le := by rw [hposition]; exact h.start_le
  le_end := by rw [hposition]; exact h.le_end
  position_aligned := by rw [hposition]; exact h.position_aligned
  aligned := by rw [hblocks]; exact h.aligned
  start_le_block := by rw [hblocks]; exact h.start_le_block
  block_le := by rw [hblocks, hposition]; exact h.block_le
  apart := by rw [hblocks]; exact h.apart

end

/-! ## Calls keep the parties apart -/

/-- A change of the bitmap leaves the variables of the heap alone. -/
lemma BitmapOnly.heap {s t : MemoryState} (h : BitmapOnly s t) :
    t.heapStart = s.heapStart ∧ t.heapEnd = s.heapEnd ∧ t.heapPosition = s.heapPosition := by
  rw [h.rest]
  exact ⟨rfl, rfl, rfl⟩

/-- `map_page` leaves the variables of the heap alone. -/
lemma mapPage_heap {s t : MemoryState} (hs : BitmapReady s) {d : DirPtr}
    {virt phys flags : BitVec 32} (ht : t = (mapPage d virt phys flags).exec s) :
    t.heapStart = s.heapStart ∧ t.heapEnd = s.heapEnd ∧ t.heapPosition = s.heapPosition := by
  rw [mapPage_rest ht hs]
  exact ⟨rfl, rfl, rfl⟩

section

variable {c : Client}

lemma FramesAccounted.allocFrame (h : FramesAccounted c) (hready : BitmapReady c.st)
    (hex : ¬ Exhausted c.st) : FramesAccounted (Client.step .allocFrame c) := by
  obtain ⟨k, hleast⟩ := exists_leastFree hready hex
  obtain ⟨-, hfree, -⟩ := leastFree_eq_some_iff.mp hleast
  have htables : tableFrame (VVBright.allocFrame.exec c.st) = tableFrame c.st := by
    funext slot
    rw [tableFrame, dirs_allocFrame, tableFrame]
  rw [Client.step_allocFrame hex, FramesAccounted, List.map_cons,
    frameOf_allocFrame_of_least hready hleast, markedFrames_allocFrame hready hleast, htables]
  exact h.take hfree

lemma FramesAccounted.freeFrame (h : FramesAccounted c) {p : BitVec 32} (hp : c.Holds p)
    (hlt : p.toNat < 2 ^ 28) : FramesAccounted (Client.step (.freeFrame p) c) := by
  obtain ⟨q, hq, hqp⟩ := hp
  have htables : tableFrame ((VVBright.freeFrame p).exec c.st) = tableFrame c.st := by
    funext slot
    rw [tableFrame, (freeFrame_bitmapOnly c.st hlt).rest, tableFrame]
  have hheld : (c.held.filter fun r => frameOf r ≠ frameOf p).map frameOf =
      (c.held.map frameOf).filter fun k => k ≠ frameOf p := by
    rw [List.filter_map]
    rfl
  rw [Client.step, FramesAccounted, markedFrames_freeFrame c.st hlt, htables, ← frameOf, hheld]
  exact h.release (List.mem_map.mpr ⟨q, hq, hqp⟩)

/-- `map_page` with an existing table changes neither marks nor pointers. -/
lemma FramesAccounted.mapPage_of_table (h : FramesAccounted c) (hlow : LowInv c) {d : DirPtr}
    {virt phys flags : BitVec 32} (hne : (c.st.dirs d).tables (tableIndex virt) ≠ NULL) :
    FramesAccounted (Client.step (.mapPage d virt phys flags) c) := by
  obtain ⟨hf, htable⟩ := hlow.exists_tableFrame (d, tableIndex virt)
  obtain ⟨t, ht⟩ : ∃ t, t = (VVBright.mapPage d virt phys flags).exec c.st := ⟨_, rfl⟩
  obtain ⟨hmarked, hdirs⟩ := VVBright.mapPage_of_table ht hlow.ready htable (by rwa [← htable])
    (by rw [frameCount]; omega) (not_overlapsBitmap hf)
  have htables : tableFrame t = tableFrame c.st := by
    funext slot
    rw [tableFrame, hdirs, tableFrame]
  rw [Client.step, ← ht, FramesAccounted, hmarked, htables]
  exact h

/-- `map_page` without a table makes the frame it takes a page table. -/
lemma FramesAccounted.mapPage_of_null (h : FramesAccounted c) (hready : BitmapReady c.st)
    {d : DirPtr} {virt phys flags : BitVec 32} {k : ℕ}
    (hnull : (c.st.dirs d).tables (tableIndex virt) = NULL)
    (hleast : leastFree frameCount (markedFrames c.st) = some k) (hk : k < 256) :
    FramesAccounted (Client.step (.mapPage d virt phys flags) c) := by
  obtain ⟨hkc, hfree, -⟩ := leastFree_eq_some_iff.mp hleast
  obtain ⟨t, ht⟩ : ∃ t, t = (VVBright.mapPage d virt phys flags).exec c.st := ⟨_, rfl⟩
  have htables : tableFrame t = Function.update (tableFrame c.st) (d, tableIndex virt) k := by
    funext ⟨d', i'⟩
    rw [tableFrame, mapPage_tables_of_null ht hready hnull hleast, Function.update_apply]
    simp only [Prod.mk.injEq]
    split
    · exact frameOf_frameAddr hkc
    · rfl
  rw [Client.step, ← ht, FramesAccounted, htables,
    mapPage_markedFrames_of_null ht hready hnull hleast (not_overlapsBitmap hk)]
  refine h.install hfree ?_
  rw [tableFrame, hnull]
  rfl

/-- Every call that takes no frame in use keeps the accounts. -/
theorem FramesAccounted.step {call : Call} (h : FramesAccounted c) (hlow : LowInv c)
    (hcall : ManagerCall call c) (hunused : TakesUnused call c) :
    FramesAccounted (Client.step call c) := by
  cases call with
  | allocFrame => exact h.allocFrame hlow.ready (hlow.least hunused trivial).1
  | freeFrame p => exact h.freeFrame hcall (hlow.lt_of_holds hcall)
  | mapPage d virt phys flags =>
    by_cases hnull : (c.st.dirs d).tables (tableIndex virt) = NULL
    · obtain ⟨-, k, hk, hleast⟩ := hlow.least hunused hnull
      exact h.mapPage_of_null hlow.ready hnull hleast hk
    · exact h.mapPage_of_table hlow hnull
  | kmalloc size =>
    obtain ⟨position, hexec⟩ := exists_exec_kmalloc size c.st
    rw [Client.step, hexec]
    exact h
  | kfree ptr => exact h

/-- Every call but `kmalloc` leaves the heap alone. -/
lemma HeapInv.step_call {call : Call} (h : HeapInv c) (hlow : LowInv c) (hcall : ManagerCall call c)
    (hunused : TakesUnused call c)
    (hwrap : ∀ size, call = .kmalloc size → NoWrap (.kmalloc size) c) :
    HeapInv (Client.step call c) := by
  cases call with
  | allocFrame =>
    obtain ⟨hstart, hend, hposition⟩ := (allocFrame_bitmapOnly hlow.ready).heap
    rw [Client.step_allocFrame (hlow.least hunused trivial).1]
    exact h.congr rfl hstart hend hposition
  | freeFrame p =>
    obtain ⟨hstart, hend, hposition⟩ := (freeFrame_bitmapOnly c.st (hlow.lt_of_holds hcall)).heap
    exact h.congr rfl hstart hend hposition
  | mapPage d virt phys flags =>
    obtain ⟨hstart, hend, hposition⟩ := mapPage_heap hlow.ready
      (Eq.refl ((VVBright.mapPage d virt phys flags).exec c.st))
    exact h.congr rfl hstart hend hposition
  | kmalloc size => exact h.step (hwrap size rfl)
  | kfree ptr => exact h

end

/-! ## Calls keep the mapping of the first 4 MB -/

/-- `kmalloc` hands out memory without touching it. -/
lemma kmalloc_accessesIn (P : MemoryState → BitVec 32 → Prop) (size : BitVec 32)
    (s : MemoryState) : AccessesIn P (kmalloc size) s := by
  rw [kmalloc, accessesIn_bind, accessesIn_bind, eval_gets, exec_gets, eval_gets, exec_gets]
  refine ⟨accessesIn_gets _ _ _, accessesIn_gets _ _ _, ?_⟩
  by_cases hgt : s.heapPosition + heapSize size > s.heapEnd
  · rw [if_pos hgt]
    exact accessesIn_pure _ _ _
  · rw [if_neg hgt]
    simp

section

variable {c : Client}

lemma OwnInv.tableFrame_eq (h : OwnInv c) : tableFrame c.st (kernelDirectory, 0) = 1 := by
  rw [tableFrame, h.table, frameOf_frameAddr (by norm_num [frameCount])]

/-- The page tables of other slots are in frames from 2 on. -/
lemma OwnInv.two_le_tableFrame (h : OwnInv c) {slot : DirPtr × Fin 1024}
    (hslot : slot ≠ (kernelDirectory, 0)) (hne : tableFrame c.st slot ≠ 0) :
    2 ≤ tableFrame c.st slot := by
  by_contra hlt
  have hone : tableFrame c.st slot = 1 := by omega
  exact hslot (h.accounts.cell_injective slot (kernelDirectory, 0) hne
    (by rw [hone, h.tableFrame_eq]))

/-- The next free frame is none of the first two. -/
lemma OwnInv.two_le_leastFree (h : OwnInv c) {k : ℕ}
    (hleast : leastFree frameCount (markedFrames c.st) = some k) : 2 ≤ k := by
  by_contra hlt
  refine (leastFree_eq_some_iff.mp hleast).2.1 ?_
  rw [h.accounts.mem_marked_iff]
  rcases (by omega : k = 0 ∨ k = 1) with rfl | rfl
  · exact Or.inl rfl
  · exact Or.inr (Or.inr ⟨(kernelDirectory, 0), h.tableFrame_eq⟩)

/-- `map_page` outside the first 4 MB of the kernel directory. -/
lemma OwnInv.mapPage (h : OwnInv c) {d : DirPtr} {virt phys flags : BitVec 32}
    (hmaps : MapsAbove (.mapPage d virt phys flags))
    (hunused : TakesUnused (.mapPage d virt phys flags) c) :
    AccessesIn Reachable (VVBright.mapPage d virt phys flags) c.st ∧
      IdentityMapped ((VVBright.mapPage d virt phys flags).exec c.st) := by
  have hslot : d = kernelDirectory → tableIndex virt ≠ 0 :=
    fun hd h0 => (hmaps hd).not_gt (tableIndex_eq_zero_iff.mp h0)
  by_cases hnull : (c.st.dirs d).tables (tableIndex virt) = NULL
  · obtain ⟨-, k, hk, hleast⟩ := h.low.least hunused hnull
    exact h.mapped.mapPage h.low.ready hslot phys flags (h.two_le_leastFree hleast) (by omega)
      (Or.inr ⟨hnull, hleast⟩)
  · obtain ⟨hf, htable⟩ := h.low.exists_tableFrame (d, tableIndex virt)
    have hne : tableFrame c.st (d, tableIndex virt) ≠ 0 := by
      intro h0
      rw [h0] at htable
      exact hnull htable
    have hother : (d, tableIndex virt) ≠ (kernelDirectory, 0) := by
      intro heq
      rw [Prod.mk.injEq] at heq
      exact hslot heq.1 heq.2
    exact h.mapped.mapPage h.low.ready hslot phys flags (h.two_le_tableFrame hother hne) (by omega)
      (Or.inl htable)

/-- Everything a permitted call dereferences is mapped to itself, and the mapping stays. -/
theorem OwnInv.accesses {call : Call} (h : OwnInv c) (hcall : ManagerCall call c)
    (hmaps : MapsAbove call) (hunused : TakesUnused call c) :
    call.AccessesIn Reachable c.st ∧ IdentityMapped (Client.step call c).st ∧
      ((Client.step call c).st.dirs kernelDirectory).tables 0 = frameAddr 1 := by
  have hready := h.low.ready
  have hbitmap : ∀ i < 2048, Reachable c.st (wordAddr c.st.frames i) :=
    fun i hi => h.mapped.reachable_bitmap hready hi
  cases call with
  | allocFrame =>
    rw [Client.step_allocFrame (h.low.least hunused trivial).1]
    refine ⟨allocFrame_accessesIn hready hbitmap,
      h.mapped.of_bitmapOnly hready (allocFrame_bitmapOnly hready), ?_⟩
    dsimp only
    rw [dirs_allocFrame]
    exact h.table
  | freeFrame p =>
    have hp := h.low.lt_of_holds hcall
    have hbit := freeFrame_bitmapOnly c.st hp
    have hdirs : ((VVBright.freeFrame p).exec c.st).dirs = c.st.dirs := by
      rw [hbit.rest]
    rw [Client.step]
    refine ⟨?_, h.mapped.of_bitmapOnly hready hbit, ?_⟩
    · have hindex : indexFromBit (p.toNat / pageSize) < 2048 := by
        rw [indexFromBit, pageSize]
        omega
      simp [Call.AccessesIn, VVBright.freeFrame, clearFrame, readFrames, writeFrames,
        hbitmap _ hindex]
    · dsimp only
      rw [hdirs]
      exact h.table
  | mapPage d virt phys flags =>
    obtain ⟨hacc, hmapped⟩ := h.mapPage hmaps hunused
    rw [Client.step]
    refine ⟨hacc, hmapped, ?_⟩
    dsimp only
    rw [tables_mapPage, if_neg]
    · exact h.table
    · rintro ⟨-, hd, h0⟩
      exact (hmaps hd.symm).not_gt (tableIndex_eq_zero_iff.mp h0.symm)
  | kmalloc size =>
    obtain ⟨position, hexec⟩ := exists_exec_kmalloc size c.st
    rw [Client.step, hexec]
    exact ⟨kmalloc_accessesIn _ size _,
      ⟨h.mapped.loaded, h.mapped.aligned, h.mapped.word, h.mapped.entry⟩, h.table⟩
  | kfree ptr => exact ⟨accessesIn_pure _ _ _, h.mapped, h.table⟩

/-- The directories stay where they are. -/
lemma KernelLinked.step (h : KernelLinked c.st) (hready : BitmapReady c.st) (call : Call) :
    KernelLinked (Client.step call c).st := by
  obtain ⟨m, dirs, position, hst⟩ := Client.step_rest hready call
  rw [hst]
  exact ⟨h.aligned, h.above_bitmap, h.below_heap⟩

/-- Every permitted call keeps the parties apart. -/
theorem OwnInv.step {call : Call} (h : OwnInv c) (hcall : OwnerCall call c) :
    OwnInv (Client.step call c) := by
  obtain ⟨hmanager, hmaps, hlow, hwrap⟩ := hcall
  have hunused := hlow.takesUnused h.low.ready
  obtain ⟨-, hmapped, htable⟩ := h.accesses hmanager hmaps hunused
  exact ⟨h.low.step hmanager hunused, h.heap.step_call h.low hmanager hunused hwrap,
    h.accounts.step h.low hmanager hunused, h.linked.step h.low.ready call, hmapped, htable⟩

/-- Every byte the client owns is mapped to itself. -/
lemma OwnInv.reachable_of_owns (h : OwnInv c) {x : BitVec 32} (hx : c.Owns x) :
    Reachable c.st x := by
  rcases hx with ⟨q, hq, hqx⟩ | ⟨b, hb, hlo, hhi⟩
  · have hmem : frameOf x ∈ c.held.map frameOf := List.mem_map.mpr ⟨q, hq, hqx⟩
    have hzero : frameOf x ≠ 0 := fun h0 => h.accounts.zero_notMem (h0 ▸ hmem)
    have hlow := h.low.held q hq
    rw [hqx] at hlow
    rw [frameOf] at hzero hlow
    exact h.mapped.reachable (by omega) (by omega)
  · have hstart := h.heap.start_le_block b hb
    have hend := h.heap.block_le b hb
    have hposition := h.heap.le_end
    exact h.mapped.reachable (by omega) (by omega)

/-- The kernel directory is between the bitmap and the heap, and nothing else is. -/
lemma OwnInv.directory_apart (h : OwnInv c) {x : BitVec 32} (hx : InKernelDirectory c.st x) :
    ¬ OverlapsBitmap (frameOf x) ∧ (∀ slot, frameOf x ≠ tableFrame c.st slot) ∧ ¬ c.Owns x := by
  obtain ⟨hlo, hhi⟩ := hx
  have hbitmap := h.linked.above_bitmap
  have hheap := h.linked.below_heap
  have hframe : 258 ≤ frameOf x := by
    rw [frameOf]
    omega
  refine ⟨?_, ?_, ?_⟩
  · rw [overlapsBitmap_iff]
    omega
  · intro slot heq
    have hslot := (h.low.exists_tableFrame slot).1
    omega
  · rintro (⟨q, hq, hqx⟩ | ⟨b, hb, hblo, -⟩)
    · have hlow := h.low.held q hq
      omega
    · have hstart := h.heap.start_le_block b hb
      omega

/-- The invariant gives what is promised. -/
lemma OwnInv.separated (h : OwnInv c) : Separated c where
  blocks := h.heap.sound
  held_unused q hq := not_inUse (h.low.held q hq)
  tables_unused slot := not_inUse (h.low.exists_tableFrame slot).1
  directory _ hx := h.directory_apart hx
  accounts := h.accounts

end

/-! ## Calls leave the client's bytes alone -/

/-- A change of the bitmap leaves the bytes off it alone. -/
lemma BitmapOnly.byte {s t : MemoryState} (h : BitmapOnly s t) (hs : BitmapReady s) {x : BitVec 32}
    (hx : x.toNat < 0x100000 ∨ 0x102000 ≤ x.toNat) : t.mem x = s.mem x := by
  have hlt := x.isLt
  have haddr : (BitVec.ofNat 32 (x.toNat / 4 * 4)).toNat = x.toNat / 4 * 4 := by
    rw [BitVec.toNat_ofNat]
    omega
  apply byte_eq_of_load32_eq (a := BitVec.ofNat 32 (x.toNat / 4 * 4))
  · refine h.off _ fun i hi => ?_
    have hword : (wordAddr 0x100000#32 i).toNat = 0x100000 + 4 * i :=
      toNat_wordAddr (by change 0x100000 + 4 * i < _; omega)
    rw [hs.frames_eq]
    rcases hx with hx | hx
    · exact (wordsApart_of_le (by omega) (by omega)).symm
    · exact wordsApart_of_le (by omega) (by omega)
  · bv_omega

/-- A store to an entry of a page table leaves the bytes of other frames alone. -/
lemma store32_entryAddr_of_frame {m : Memory} {f e : ℕ} (hf : f < frameCount) (he : e < 1024)
    (v : BitVec 32) {x : BitVec 32} (hx : frameOf x ≠ f) :
    store32 m (entryAddr f e) v x = m x := by
  have haddr := toNat_entryAddr hf he
  have hlt := x.isLt
  apply store32_outside
  rw [frameCount] at hf
  rw [frameOf] at hx
  rw [BitVec.toNat_sub, haddr]
  omega

/-- Clearing a page table leaves the bytes of other frames alone. -/
lemma clearTableMem_of_frame {m : Memory} {f n : ℕ} (hf : f < frameCount) (hn : n ≤ 1024)
    {x : BitVec 32} (hx : frameOf x ≠ f) : clearTableMem (frameAddr f) m n x = m x := by
  induction n with
  | zero => rfl
  | succ n ih =>
    rw [clearTableMem, ← entryAddr, store32_entryAddr_of_frame hf (by omega) _ hx, ih (by omega)]

section

variable {c : Client} {x : BitVec 32}

/-- The client's bytes are off the bitmap, in no page table, and in no low frame that is free. -/
lemma OwnInv.off_of_owns (h : OwnInv c) (hx : c.Owns x) :
    (x.toNat < 0x100000 ∨ 0x102000 ≤ x.toNat) ∧ (∀ slot, frameOf x ≠ tableFrame c.st slot) ∧
      ∀ k < 256, k ∉ markedFrames c.st → frameOf x ≠ k := by
  rcases hx with ⟨q, hq, hqx⟩ | ⟨b, hb, hlo, -⟩
  · have hlt := h.low.held q hq
    have hmem : frameOf x ∈ c.held.map frameOf := List.mem_map.mpr ⟨q, hq, hqx⟩
    refine ⟨Or.inl ?_, ?_, ?_⟩
    · rw [hqx, frameOf] at hlt
      omega
    · intro slot heq
      exact h.accounts.cell_notMem slot (heq ▸ hmem)
    · rintro k - hfree rfl
      exact hfree ((h.accounts.mem_marked_iff _).mpr (Or.inr (Or.inl hmem)))
  · have hstart := h.heap.start_le_block b hb
    have hframe : 512 ≤ frameOf x := by
      rw [frameOf]
      omega
    refine ⟨Or.inr (by omega), ?_, fun k hk _ heq => by omega⟩
    intro slot heq
    have hslot := (h.low.exists_tableFrame slot).1
    omega

/-- A call changes no byte off the bitmap that lies neither in a page table nor in the frame it
takes. -/
theorem LowInv.mem_step {call : Call} (h : LowInv c) (hcall : ManagerCall call c)
    (hunused : TakesUnused call c) (hoff : x.toNat < 0x100000 ∨ 0x102000 ≤ x.toNat)
    (htables : ∀ slot, frameOf x ≠ tableFrame c.st slot)
    (htaken : Allocates call c → frameOf x ≠ frameOf (VVBright.allocFrame.eval c.st)) :
    (Client.step call c).st.mem x = c.st.mem x := by
  have hready := h.ready
  cases call with
  | allocFrame =>
    rw [Client.step_allocFrame (h.least hunused trivial).1]
    exact (allocFrame_bitmapOnly hready).byte hready hoff
  | freeFrame p =>
    exact (freeFrame_bitmapOnly c.st (h.lt_of_holds hcall)).byte hready hoff
  | mapPage d virt phys flags =>
    change ((VVBright.mapPage d virt phys flags).exec c.st).mem x = c.st.mem x
    by_cases hnull : (c.st.dirs d).tables (tableIndex virt) = NULL
    · -- the bitmap, the new table and one entry of it are written
      obtain ⟨-, k, -, hleast⟩ := h.least hunused hnull
      have hkc := (leastFree_eq_some_iff.mp hleast).1
      have hne := htaken hnull
      rw [frameOf_allocFrame_of_least hready hleast] at hne
      rw [exec_mapPage_of_null phys flags hnull, (allocFrame_of_least hready hleast).1,
        mem_fillState, ← entryAddr, store32_entryAddr_of_frame hkc (entryIndex_lt virt) _ hne,
        mem_newTableState, clearTableMem_of_frame hkc le_rfl hne]
      exact (allocFrame_bitmapOnly hready).byte hready hoff
    · obtain ⟨hf, htable⟩ := h.exists_tableFrame (d, tableIndex virt)
      rw [exec_mapPage_of_table phys flags htable (by rwa [← htable]), mem_fillState, ← entryAddr,
        store32_entryAddr_of_frame (by rw [frameCount]; omega) (entryIndex_lt virt) _
          (htables (d, tableIndex virt))]
  | kmalloc size =>
    obtain ⟨position, hexec⟩ := exists_exec_kmalloc size c.st
    rw [Client.step, hexec]
  | kfree ptr => rfl

/-- Every permitted call leaves the client's bytes alone. -/
theorem OwnInv.mem_step {call : Call} (h : OwnInv c) (hcall : OwnerCall call c)
    (hx : c.Owns x) : (Client.step call c).st.mem x = c.st.mem x := by
  obtain ⟨hmanager, -, hlow, -⟩ := hcall
  obtain ⟨hoff, htables, hfree⟩ := h.off_of_owns hx
  have hunused := hlow.takesUnused h.low.ready
  refine h.low.mem_step hmanager hunused hoff htables fun halloc => ?_
  obtain ⟨-, k, hk, hleast⟩ := h.low.least hunused halloc
  obtain ⟨-, hunmarked, -⟩ := leastFree_eq_some_iff.mp hleast
  rw [frameOf_allocFrame_of_least h.low.ready hleast]
  exact hfree k hk hunmarked

end

/-! ## Runs after `memory_init` -/

section

variable {s t : MemoryState}

/-- Once paging is set up frame 1 is the page table of the first 4 MB, and every other slot is
empty. -/
lemma PagingSetUp.tableFrame_eq (h : PagingSetUp 1024 s t)
    (hempty : ∀ d, d ≠ kernelDirectory → ∀ i, (s.dirs d).tables i = NULL)
    (slot : DirPtr × Fin 1024) :
    tableFrame t slot = if slot = (kernelDirectory, 0) then 1 else 0 := by
  obtain ⟨d, i⟩ := slot
  rw [tableFrame]
  split
  · rename_i hslot
    rw [Prod.mk.injEq] at hslot
    rw [hslot.1, hslot.2, h.table]
    exact frameOf_frameAddr (by norm_num [frameCount])
  · rename_i hslot
    have hnull : (t.dirs d).tables i = NULL := by
      by_cases hd : d = kernelDirectory
      · subst hd
        exact h.tables_eq i fun hi => hslot (by rw [hi])
      · rw [h.others d hd]
        exact hempty d hd i
    rw [hnull]
    rfl

lemma PagingSetUp.framesAccounted (h : PagingSetUp 1024 s t)
    (hempty : ∀ d, d ≠ kernelDirectory → ∀ i, (s.dirs d).tables i = NULL) :
    FramesAccounted (Client.start t) := by
  have htable := h.tableFrame_eq hempty
  change Accounts [] (tableFrame t) (markedFrames t)
  refine ⟨List.not_mem_nil, List.nodup_nil, ?_, fun _ => List.not_mem_nil, ?_⟩
  · intro i j hne heq
    rw [htable i] at hne heq
    rw [htable j] at heq
    grind
  · intro k
    rw [h.marked, Finset.mem_range]
    constructor
    · intro hk
      rcases (by omega : k = 0 ∨ k = 1) with rfl | rfl
      · exact Or.inl rfl
      · exact Or.inr (Or.inr ⟨(kernelDirectory, 0), by rw [htable, if_pos rfl]⟩)
    · rintro (rfl | hmem | ⟨slot, rfl⟩)
      · norm_num
      · exact absurd hmem List.not_mem_nil
      · rw [htable]
        split <;> norm_num

end

lemma ownInv_memoryInit {s : MemoryState} (hlinked : KernelLinked s)
    (hempty : ∀ d, d ≠ kernelDirectory → ∀ i, (s.dirs d).tables i = NULL) :
    OwnInv (Client.start (memoryInit.exec s)) := by
  have hlow := lowInv_memoryInit hempty
  have hsetup := memoryInit_setUp s
  have hloaded := (memoryInit_loaded s).1
  have hheap : HeapInv (Client.start (memoryInit.exec s)) := by
    obtain ⟨t, -, hexec⟩ := exec_memoryInit s
    rw [hexec]
    exact (heapInv_init t).congr rfl rfl rfl rfl
  generalize memoryInit.exec s = t at hlow hsetup hloaded hheap ⊢
  have hlinked' : KernelLinked t := by
    obtain ⟨haligned, hbitmap, hend⟩ := hlinked
    rw [DirAligned, ← hsetup.dirAddr] at haligned
    rw [← hsetup.dirAddr] at hbitmap hend
    exact ⟨haligned, hbitmap, hend⟩
  exact ⟨hlow, hheap, hsetup.framesAccounted hempty, hlinked',
    hsetup.identityMapped hloaded hlinked.aligned, hsetup.table⟩

lemma blankState_linked : KernelLinked blankState := ⟨by decide, by decide, by decide⟩

end VVBright
