import VVBright.Memory.Reserved

/-!
# Page tables under the mapping in force

After `paging_init` the processor translates every address, and `map_page` uses the physical address
of a page table as a pointer.  The pointer works while the frame of the table lies in the part of
memory `paging_init` mapped to itself, the pages 1 to 1023, and while the processor finds this
mapping at all: CR3 has no room for the low twelve bits of `&kernel_directory.tables_physical`, so
the directory has to be page-aligned, which nothing in the source asks for.

`IdentityMapped` says that this part of the mapping is intact.  It is kept by every store that
misses frame 1, where the page table of the first 4 MB is, and makes every address from `0x1000` to
`0x400000` reachable; so the accesses of `map_page` are reachable as long as page tables are taken
from the frames 2 to 1023.
-/

namespace VVBright

open Traced

/-- The address is mapped to itself, as present, by the directory the processor walks. -/
def Reachable (s : MemoryState) (a : BitVec 32) : Prop :=
  ∃ dir, s.loadedDirectory = some dir ∧ pageWalk s.mem dir a = some a

/-- The accesses of a call satisfy `P`. -/
def Call.AccessesIn (P : MemoryState → BitVec 32 → Prop) : Call → MemoryState → Prop
  | .allocFrame, s => Traced.AccessesIn P VVBright.allocFrame s
  | .freeFrame p, s => Traced.AccessesIn P (VVBright.freeFrame p) s
  | .mapPage d virt phys flags, s => Traced.AccessesIn P (VVBright.mapPage d virt phys flags) s
  | .kmalloc size, s => Traced.AccessesIn P (VVBright.kmalloc size) s
  | .kfree ptr, s => Traced.AccessesIn P (VVBright.kfree ptr) s

/-- The calls considered: `map_page` is called for the current directory and a page from 4 MB on,
held frames are freed, and the allocator never runs out. -/
def PageCall : Call → Client → Prop
  | .allocFrame, c => ¬ Exhausted c.st
  | .freeFrame p, c => c.Holds p
  | .mapPage d virt _ _, c => getCurrentDirectory.eval c.st = some d ∧ 0x400000 ≤ virt.toNat ∧
      ((c.st.dirs d).tables (tableIndex virt) = NULL → ¬ Exhausted c.st)
  | _, _ => False

/-- Every address a `map_page` call dereferences is reachable at the moment of the access. -/
def AccessesReachable : Call → Client → Prop
  | .mapPage d virt phys flags, c => AccessesIn Reachable (mapPage d virt phys flags) c.st
  | _, _ => True

/-- The frame shares a byte with one of the two arrays of words of the kernel directory. -/
def OverlapsDirectory (s : MemoryState) (k : ℕ) : Prop :=
  FrameOverlaps k (s.dirAddr kernelDirectory).val.toNat
    ((s.dirAddr kernelDirectory).val.toNat + 8192)

/-- A frame that `map_page` takes for a page table is one of the frames 2 to 1023, and not one the
kernel directory lies in: clearing the table would clear the directory. -/
def TakesMappedFrame : Call → Client → Prop
  | .mapPage d virt _ _, c => (c.st.dirs d).tables (tableIndex virt) = NULL →
      2 ≤ frameOf (allocFrame.eval c.st) ∧ frameOf (allocFrame.eval c.st) < 1024 ∧
        ¬ OverlapsDirectory c.st (frameOf (allocFrame.eval c.st))
  | _, _ => True

/-! ## The identity mapping -/

/-- The kernel directory is loaded, and its first slot maps the pages 1 to 1023 to themselves. -/
structure IdentityMapped (s : MemoryState) : Prop where
  /-- The kernel directory is loaded. -/
  loaded : Loaded s kernelDirectory
  /-- The processor reads it from its first word on. -/
  aligned : DirAligned s kernelDirectory
  /-- The first directory word names frame 1. -/
  word : (s.dirs kernelDirectory).tablesPhysical 0 = 0x1003#32
  /-- The entries from 1 on map their own page. -/
  entry : ∀ e, 1 ≤ e → e < 1024 →
    load32 s.mem (entryAddr 1 e) = filledEntry (frameAddr e) 0x03#32 clearedEntry

/-- The initialisation sets the identity mapping up. -/
lemma PagingSetUp.identityMapped {s t : MemoryState} (h : PagingSetUp 1024 s t)
    (hloaded : Loaded t kernelDirectory) (haligned : DirAligned s kernelDirectory) :
    IdentityMapped t := by
  rw [DirAligned, ← h.dirAddr] at haligned
  exact ⟨hloaded, haligned, h.word, h.mapped⟩

section

variable {s : MemoryState}

/-- With the kernel directory aligned, reachable is what its own words map to itself. -/
lemma Loaded.reachable_iff {d : DirPtr} (h : Loaded s d) (haligned : DirAligned s d)
    {a : BitVec 32} : Reachable s a ↔ pageWalk s.mem (s.dirs d) a = some a := by
  rw [Reachable, h.of_aligned haligned]
  simp

/-- The pages 1 to 1023 are reachable through the identity mapping. -/
lemma IdentityMapped.reachable (h : IdentityMapped s) {a : BitVec 32} (hlo : 0x1000 ≤ a.toNat)
    (hhi : a.toNat < 0x400000) : Reachable s a := by
  have hslot : tableIndex a = 0 := tableIndex_eq_zero_iff.mpr hhi
  have hindex := entryIndex_of_lt hhi
  have hframe := toNat_frameAddr (k := a.toNat / 4096) (by rw [frameCount]; omega)
  rw [h.loaded.reachable_iff h.aligned, pageWalk_of_frame (f := 1) (by rw [hslot, h.word]; rfl)
    (by rw [hslot, h.word]; rfl),
    ← entryAddr, hindex, h.entry _ (by omega) (by omega), entryTarget_filledEntry, hframe]
  congr 1
  apply BitVec.eq_of_toNat_eq
  rw [BitVec.toNat_ofNat]
  omega

/-- A store into another frame keeps the identity mapping. -/
lemma IdentityMapped.store (h : IdentityMapped s) {f e : ℕ} (hf : f < frameCount) (hne : f ≠ 1)
    (he : e < 1024) (v : BitVec 32) :
    IdentityMapped { s with mem := store32 s.mem (entryAddr f e) v } := by
  refine ⟨h.loaded, h.aligned, h.word, ?_⟩
  intro e' h1 h2
  rw [load32_store32_of_apart _ _
    (entryAddr_apart hf he (by norm_num [frameCount]) h2 (Or.inl hne))]
  exact h.entry e' h1 h2

/-- A page table in another slot does not change the first slot. -/
lemma IdentityMapped.setTable (h : IdentityMapped s) {d : DirPtr} {i : Fin 1024}
    (hi : d = kernelDirectory → i ≠ 0) (table physical : BitVec 32) :
    IdentityMapped (setTable d i table physical s) := by
  refine ⟨h.loaded, h.aligned, ?_, h.entry⟩
  rw [← h.word, VVBright.setTable]
  by_cases hd : kernelDirectory = d
  · subst hd
    simp only [Function.update_self, Function.update_of_ne (hi rfl).symm]
  · simp only [Function.update_of_ne hd]

/-- Changes of the bitmap do not touch the identity mapping. -/
lemma IdentityMapped.of_bitmapOnly (h : IdentityMapped s) (hs : BitmapReady s) {t : MemoryState}
    (hst : BitmapOnly s t) : IdentityMapped t := by
  have hone : 1 < frameCount := by norm_num [frameCount]
  have hdirs : t.dirs = s.dirs := by rw [hst.rest]
  have hloaded : Loaded t kernelDirectory := by
    rw [hst.rest]
    exact h.loaded
  have haligned : DirAligned t kernelDirectory := by
    rw [hst.rest]
    exact h.aligned
  refine ⟨hloaded, haligned, by rw [hdirs]; exact h.word, ?_⟩
  intro e h1 h2
  rw [hst.off _ (entryAddr_offBitmap hone h2 hs (not_overlapsBitmap (by norm_num)))]
  exact h.entry e h1 h2

/-- The identity mapping is in the bytes of frame 1. -/
lemma IdentityMapped.withMem (h : IdentityMapped s) {m : Memory}
    (hm : ∀ x, frameOf x = 1 → m x = s.mem x) : IdentityMapped { s with mem := m } := by
  refine ⟨h.loaded, h.aligned, h.word, fun e hlo hhi => ?_⟩
  have haddr := toNat_entryAddr (f := 1) (by norm_num [frameCount]) hhi
  rw [← h.entry e hlo hhi]
  refine load32_congr fun x hx => hm x ?_
  rw [frameOf]
  bv_omega

/-- The words of the bitmap are reachable. -/
lemma IdentityMapped.reachable_bitmap (h : IdentityMapped s) (hs : BitmapReady s) {i : ℕ}
    (hi : i < 2048) : Reachable s (wordAddr s.frames i) := by
  have hword : (wordAddr s.frames i).toNat = 0x100000 + 4 * i := by
    rw [hs.frames_eq, toNat_wordAddr]
    · rfl
    · change 0x100000 + 4 * i < 2 ^ 32
      omega
  exact h.reachable (by omega) (by omega)

/-- The entries of a page table in one of the pages 1 to 1023 are reachable. -/
lemma IdentityMapped.reachable_entry (h : IdentityMapped s) {f e : ℕ} (hlo : 1 ≤ f)
    (hhi : f < 1024) (he : e < 1024) : Reachable s (entryAddr f e) := by
  have haddr := toNat_entryAddr (f := f) (by rw [frameCount]; omega) he
  exact h.reachable (by omega) (by omega)

/-- Assignments to an entry of a page table in the frames 2 to 1023 go to a reachable address, and
keep the identity mapping. -/
lemma IdentityMapped.assignFields (h : IdentityMapped s) {f e : ℕ} (hlo : 2 ≤ f) (hhi : f < 1024)
    (he : e < 1024) (fs : List (PageField × BitVec 32)) :
    AccessesIn Reachable (assignFields (entryAddr f e) fs) s ∧
      IdentityMapped ((assignFields (entryAddr f e) fs).exec s) := by
  have hstore := h.store (f := f) (by rw [frameCount]; omega) (by omega) he
  refine ⟨assignFields_accessesIn _ _ fun v => ?_, ?_⟩
  · exact (hstore v).reachable_entry (by omega) hhi he
  · rw [exec_assignFields]
    exact hstore _

/-- The clearing loop of a new page table in the frames 2 to 1023. -/
lemma IdentityMapped.clearTable (h : IdentityMapped s) {f : ℕ} (hlo : 2 ≤ f) (hhi : f < 1024) :
    AccessesIn Reachable
        (forLoop 1024 fun j =>
          VVBright.assignFields (wordAddr (frameAddr f) j) clearAssignments) s ∧
      IdentityMapped ((forLoop 1024 fun j =>
        VVBright.assignFields (wordAddr (frameAddr f) j) clearAssignments).exec s) := by
  have hround : ∀ j < 1024, ∀ t, IdentityMapped t → _ := fun j hj t ht =>
    ht.assignFields hlo hhi hj clearAssignments
  constructor
  · exact forLoop_accessesIn (fun _ t => IdentityMapped t) h (fun j hj t ht => (hround j hj t ht).2)
      (fun j hj t ht => (hround j hj t ht).1)
  · exact forLoop_invariant (fun _ t => IdentityMapped t) h fun j hj t ht => (hround j hj t ht).2

/-- Creating a page table in the frames 2 to 1023. -/
lemma IdentityMapped.newTable (h : IdentityMapped s) (hs : BitmapReady s) {d : DirPtr}
    {i : Fin 1024} (hi : d = kernelDirectory → i ≠ 0) (flags : BitVec 32) {k : ℕ}
    (hleast : leastFree frameCount (markedFrames s) = some k) (hlo : 2 ≤ k) (hhi : k < 1024) :
    AccessesIn Reachable (newTable d i flags) s ∧ IdentityMapped ((newTable d i flags).exec s) := by
  have hmarked := (h.of_bitmapOnly hs (allocFrame_bitmapOnly hs)).setTable hi (frameAddr k)
    (frameAddr k ||| flags ||| 0x01#32)
  obtain ⟨hacc, hkeep⟩ := hmarked.clearTable hlo hhi
  rw [VVBright.newTable, accessesIn_bind, accessesIn_bind, exec_bind, exec_bind, exec_modify,
    (allocFrame_of_least hs hleast).1]
  refine ⟨⟨?_, accessesIn_modify _ _ _, hacc⟩, hkeep⟩
  exact allocFrame_accessesIn hs fun j hj => h.reachable_bitmap hs hj

/-- The accesses of `map_page` are reachable when its page table, old or new, is in the frames 2 to
1023, and the identity mapping is kept. -/
theorem IdentityMapped.mapPage (h : IdentityMapped s) (hs : BitmapReady s) {d : DirPtr}
    {virt : BitVec 32} (hvirt : d = kernelDirectory → tableIndex virt ≠ 0) (phys flags : BitVec 32)
    {f : ℕ}
    (hlo : 2 ≤ f) (hhi : f < 1024)
    (htable : (s.dirs d).tables (tableIndex virt) = frameAddr f ∨
      (s.dirs d).tables (tableIndex virt) = NULL ∧
        leastFree frameCount (markedFrames s) = some f) :
    AccessesIn Reachable (mapPage d virt phys flags) s ∧
      IdentityMapped ((mapPage d virt phys flags).exec s) := by
  have hne : frameAddr f ≠ NULL := frameAddr_ne_null (by rw [frameCount]; omega) (by omega)
  obtain ⟨t, ht⟩ : ∃ t, t = (ensureTable d (tableIndex virt) flags).exec s := ⟨_, rfl⟩
  have hensure : AccessesIn Reachable (ensureTable d (tableIndex virt) flags) s ∧
      IdentityMapped t ∧ (t.dirs d).tables (tableIndex virt) = frameAddr f := by
    rw [ensureTable, exec_bind, eval_gets, exec_gets] at ht
    rw [ensureTable, accessesIn_bind, eval_gets, exec_gets]
    rcases htable with htable | ⟨hnull, hleast⟩
    · rw [if_neg (by rwa [htable]), exec_pure] at ht
      rw [if_neg (by rwa [htable]), ht]
      exact ⟨⟨accessesIn_gets _ _ _, accessesIn_pure _ _ _⟩, h, htable⟩
    · obtain ⟨hacc, hkeep⟩ := h.newTable hs hvirt flags hleast hlo hhi
      rw [if_pos hnull] at ht
      rw [if_pos hnull]
      refine ⟨⟨accessesIn_gets _ _ _, hacc⟩, by rw [ht]; exact hkeep, ?_⟩
      rw [ht, exec_newTable, tables_newTableState, if_pos ⟨rfl, rfl⟩,
        (allocFrame_of_least hs hleast).1]
  obtain ⟨hacc, hmapped, hpointer⟩ := hensure
  obtain ⟨hacc', hkeep⟩ := hmapped.assignFields hlo hhi (entryIndex_lt virt)
    (fillAssignments phys flags)
  rw [VVBright.mapPage, accessesIn_bind, accessesIn_bind, exec_bind, exec_bind, ← ht, eval_gets,
    exec_gets, hpointer, ← entryAddr]
  exact ⟨⟨hacc, accessesIn_gets _ _ _, hacc'⟩, hkeep⟩

end

/-! ## Runs -/

/-- What is known of a run after `paging_init` whose page tables lie in the frames 2 to 1023. -/
structure ReachInv (c : Client) : Prop where
  /-- The bitmap is where `paging_init` put it. -/
  ready : BitmapReady c.st
  /-- The identity mapping is intact. -/
  mapped : IdentityMapped c.st
  /-- The kernel directory is current. -/
  current : c.st.currentDirectory = some kernelDirectory
  /-- The client holds managed frames. -/
  held : ∀ q ∈ c.held, frameOf q < frameCount
  /-- The other page tables of the kernel directory are in the frames 2 to 1023. -/
  tables : ∀ i, i ≠ 0 → (c.st.dirs kernelDirectory).tables i = NULL ∨
    ∃ f, 2 ≤ f ∧ f < 1024 ∧ (c.st.dirs kernelDirectory).tables i = frameAddr f

/-- `paging_init` establishes the invariant. -/
lemma reachInv_pagingInit {s : MemoryState} (haligned : DirAligned s kernelDirectory) :
    ReachInv (Client.start (pagingInit.exec s)) := by
  obtain ⟨hsetup, hcurrent, hloaded, -⟩ := pagingInit_spec s
  generalize pagingInit.exec s = t at hsetup hcurrent hloaded ⊢
  exact ⟨hsetup.ready, hsetup.identityMapped hloaded haligned, hcurrent, by simp [Client.start],
    fun i hi => Or.inl (hsetup.tables_eq i hi)⟩

section

variable {c : Client}

lemma ReachInv.allocFrame (h : ReachInv c) (hex : ¬ Exhausted c.st) :
    ReachInv (Client.step .allocFrame c) := by
  obtain ⟨k, hleast⟩ := exists_leastFree h.ready hex
  have hk : k < frameCount := (leastFree_eq_some_iff.mp hleast).1
  have hbit := allocFrame_bitmapOnly h.ready
  have hcurrent : (VVBright.allocFrame.exec c.st).currentDirectory = c.st.currentDirectory := by
    rw [hbit.rest]
  rw [Client.step_allocFrame hex]
  refine ⟨hbit.ready h.ready, h.mapped.of_bitmapOnly h.ready hbit, hcurrent.trans h.current, ?_, ?_⟩
  · intro q hq
    rcases List.mem_cons.mp hq with rfl | hq
    · rw [frameOf_allocFrame_of_least h.ready hleast]
      exact hk
    · exact h.held q hq
  · change ∀ i, i ≠ 0 → ((VVBright.allocFrame.exec c.st).dirs kernelDirectory).tables i = NULL ∨ _
    rw [dirs_allocFrame]
    exact h.tables

lemma ReachInv.freeFrame (h : ReachInv c) {p : BitVec 32} (hp : c.Holds p) :
    ReachInv (Client.step (.freeFrame p) c) := by
  obtain ⟨q, hq, hqp⟩ := hp
  have hp28 : p.toNat < 2 ^ 28 := by
    have hlt := h.held q hq
    rw [hqp, frameOf, frameCount] at hlt
    omega
  have hbit := freeFrame_bitmapOnly c.st hp28
  have hdirs : ((VVBright.freeFrame p).exec c.st).dirs = c.st.dirs := by rw [hbit.rest]
  have hcurrent : ((VVBright.freeFrame p).exec c.st).currentDirectory =
      c.st.currentDirectory := by rw [hbit.rest]
  refine ⟨hbit.ready h.ready, h.mapped.of_bitmapOnly h.ready hbit, hcurrent.trans h.current, ?_, ?_⟩
  · intro q' hq'
    exact h.held q' (List.mem_of_mem_filter hq')
  · change ∀ i, i ≠ 0 →
      (((VVBright.freeFrame p).exec c.st).dirs kernelDirectory).tables i = NULL ∨ _
    rw [hdirs]
    exact h.tables

/-- A `map_page` call whose page table, old or new, is in the frames 2 to 1023 makes reachable
accesses only, and keeps the invariant. -/
lemma ReachInv.mapPage (h : ReachInv c) {d : DirPtr} {virt phys flags : BitVec 32}
    (hcall : PageCall (.mapPage d virt phys flags) c)
    (htakes : TakesMappedFrame (.mapPage d virt phys flags) c) :
    AccessesReachable (.mapPage d virt phys flags) c ∧
      ReachInv (Client.step (.mapPage d virt phys flags) c) := by
  obtain ⟨hcurrent, hvirt, hroom⟩ := hcall
  obtain rfl : kernelDirectory = d := Option.some_injective _ (h.current.symm.trans hcurrent)
  have hslot : tableIndex virt ≠ 0 := fun h0 => hvirt.not_gt (tableIndex_eq_zero_iff.mp h0)
  -- the table is in the frame `f`: the old one, or the one that is taken
  obtain ⟨f, hlo, hhi, htable⟩ : ∃ f, 2 ≤ f ∧ f < 1024 ∧
      ((c.st.dirs kernelDirectory).tables (tableIndex virt) = frameAddr f ∨
        (c.st.dirs kernelDirectory).tables (tableIndex virt) = NULL ∧
          leastFree frameCount (markedFrames c.st) = some f) := by
    rcases h.tables (tableIndex virt) hslot with hnull | ⟨f, hlo, hhi, hf⟩
    · obtain ⟨k, hleast⟩ := exists_leastFree h.ready (hroom hnull)
      obtain ⟨hlo, hhi, -⟩ := htakes hnull
      rw [frameOf_allocFrame_of_least h.ready hleast] at hlo hhi
      exact ⟨k, hlo, hhi, Or.inr ⟨hnull, hleast⟩⟩
    · exact ⟨f, hlo, hhi, Or.inl hf⟩
  obtain ⟨hacc, hmapped⟩ := h.mapped.mapPage h.ready (fun _ => hslot) phys flags hlo hhi htable
  obtain ⟨t, ht⟩ : ∃ t, t = (VVBright.mapPage kernelDirectory virt phys flags).exec c.st := ⟨_, rfl⟩
  have hrest := mapPage_rest ht h.ready
  have htables : ∀ i, (t.dirs kernelDirectory).tables i =
      if (c.st.dirs kernelDirectory).tables (tableIndex virt) = NULL ∧
          kernelDirectory = kernelDirectory ∧ i = tableIndex virt then
        VVBright.allocFrame.eval c.st
      else (c.st.dirs kernelDirectory).tables i := by
    intro i
    rw [ht, tables_mapPage]
  rw [AccessesReachable, Client.step]
  rw [← ht] at hmapped ⊢
  refine ⟨hacc, mapPage_ready ht h.ready, hmapped, ?_, h.held, fun i hi => ?_⟩
  · change t.currentDirectory = _
    rw [hrest]
    exact h.current
  · change (t.dirs kernelDirectory).tables i = NULL ∨ ∃ f, _ ∧ _ ∧
      (t.dirs kernelDirectory).tables i = frameAddr f
    rw [htables]
    split
    · rename_i hnew
      rcases htable with hold | ⟨-, hleast⟩
      · exact absurd (hold.symm.trans hnew.1)
          (frameAddr_ne_null (by rw [frameCount]; omega) (by omega))
      · rw [(allocFrame_of_least h.ready hleast).1]
        exact Or.inr ⟨f, hlo, hhi, rfl⟩
    · exact h.tables i hi

/-- One permitted call makes reachable accesses only, and keeps the invariant. -/
theorem ReachInv.step {call : Call} (h : ReachInv c) (hcall : PageCall call c)
    (htakes : TakesMappedFrame call c) :
    AccessesReachable call c ∧ ReachInv (Client.step call c) := by
  cases call with
  | allocFrame => exact ⟨trivial, h.allocFrame hcall⟩
  | freeFrame p => exact ⟨trivial, h.freeFrame hcall⟩
  | mapPage d virt phys flags => exact h.mapPage hcall htakes
  | kmalloc _ => exact hcall.elim
  | kfree _ => exact hcall.elim

end

/-- **Page tables below 4 MB are always reachable.**  Let the kernel directory be page-aligned.  In
a run after `paging_init` in which every page table `map_page` creates is taken from the frames 2 to
1023, and not from under the kernel directory, every address `map_page` dereferences is mapped to
itself by the loaded directory at the moment of the access. -/
theorem mapPage_reachable_of_takesMappedFrame (s : MemoryState)
    (haligned : DirAligned s kernelDirectory) (calls : List Call)
    (hcalls : Along Client.step PageCall calls (Client.start (pagingInit.exec s)))
    (htakes : Along Client.step TakesMappedFrame calls (Client.start (pagingInit.exec s))) :
    Along Client.step AccessesReachable calls (Client.start (pagingInit.exec s)) :=
  (hcalls.and htakes).imp (reachInv_pagingInit haligned) (fun _ _ h hok => (h.step hok.1 hok.2).2)
    (fun _ _ h hok => (h.step hok.1 hok.2).1)

/-- A call that takes the next free frame for a page table. -/
lemma mapPage_permitted {c : Client} (hready : BitmapReady c.st)
    (hcurrent : c.st.currentDirectory = some kernelDirectory) {k : ℕ}
    (hleast : leastFree frameCount (markedFrames c.st) = some k) (hlo : 2 ≤ k) (hhi : k < 1024)
    (hoff : ¬ OverlapsDirectory c.st k) (virt phys flags : BitVec 32)
    (hvirt : 0x400000 ≤ virt.toNat) :
    PageCall (.mapPage kernelDirectory virt phys flags) c ∧
      TakesMappedFrame (.mapPage kernelDirectory virt phys flags) c := by
  have hex : ¬ Exhausted c.st := by
    rw [exhausted_iff hready, hleast]
    exact Option.some_ne_none k
  refine ⟨⟨hcurrent, hvirt, fun _ => hex⟩, fun _ => ?_⟩
  rw [frameOf_allocFrame_of_least hready hleast]
  exact ⟨hlo, hhi, hoff⟩

/-- A frame is taken, a page above 4 MB is mapped, the frame is given back, and the next page table
is put into it. -/
theorem mapPage_reachable_after_freeFrame :
    Along Client.step AccessesReachable
      [.allocFrame, .mapPage kernelDirectory 0x400000#32 0x5000#32 0x07#32, .freeFrame 0x2000#32,
        .mapPage kernelDirectory 0x800000#32 0x6000#32 0x03#32]
      (Client.start (pagingInit.exec blankState)) := by
  obtain ⟨hsetup, hcurrent, -⟩ := pagingInit_spec blankState
  obtain ⟨s, hs⟩ : ∃ s, s = pagingInit.exec blankState := ⟨_, rfl⟩
  rw [← hs] at hsetup hcurrent
  obtain ⟨c₁, c₂, c₃, hc₁, hc₂, hc₃, hex, hholds, ⟨hready₁, hready₃⟩, hleast₁, hleast₃⟩ :=
    hsetup.firstCalls
  -- neither the current directory nor the place of the directories ever changes
  have hkept : ∀ call c, BitmapReady c.st ∧ c.st.currentDirectory = s.currentDirectory ∧
      c.st.dirAddr = s.dirAddr → BitmapReady (Client.step call c).st ∧
        (Client.step call c).st.currentDirectory = s.currentDirectory ∧
          (Client.step call c).st.dirAddr = s.dirAddr := by
    intro call c h
    obtain ⟨m, dirs, position, hst⟩ := Client.step_rest h.1 call
    refine ⟨ready_step h.1 call, ?_⟩
    rw [hst]
    exact h.2
  have h₁ := hkept .allocFrame (Client.start s) ⟨hsetup.ready, rfl, rfl⟩
  rw [← hc₁] at h₁
  have h₃ := hkept (.freeFrame 0x2000#32) _
    (hkept (.mapPage kernelDirectory 0x400000#32 0x5000#32 0x07#32) c₁ h₁)
  rw [← hc₂, ← hc₃] at h₃
  have hoff : ∀ c : Client, c.st.dirAddr = s.dirAddr → ∀ k < 256, ¬ OverlapsDirectory c.st k := by
    rintro c hc k hk ⟨x, rfl, hlo, -⟩
    rw [hc, hsetup.dirAddr] at hlo
    change 0x110000 ≤ x at hlo
    omega
  obtain ⟨hcall₁, htakes₁⟩ := mapPage_permitted hready₁ (h₁.2.1.trans hcurrent) hleast₁
    (by norm_num) (by norm_num) (hoff c₁ h₁.2.2 3 (by norm_num)) 0x400000#32 0x5000#32 0x07#32
    le_rfl
  obtain ⟨hcall₃, htakes₃⟩ := mapPage_permitted hready₃ (h₃.2.1.trans hcurrent) hleast₃ le_rfl
    (by norm_num) (hoff c₃ h₃.2.2 2 (by norm_num)) 0x800000#32 0x6000#32 0x03#32 (by norm_num)
  refine mapPage_reachable_of_takesMappedFrame blankState (by decide) _ ?_ ?_
  all_goals
    rw [← hs]
    simp only [Along]
    rw [← hc₁, ← hc₂, ← hc₃]
  · exact ⟨hex, hcall₁, hholds, hcall₃, trivial⟩
  · exact ⟨trivial, htakes₁, trivial, htakes₃, trivial⟩

/-! ## Where the pointers fail -/

/-- An address in a slot without a directory word is not reachable. -/
lemma not_reachable_of_absent {s : MemoryState} {d : DirPtr} {a : BitVec 32}
    (hloaded : Loaded s d) (haligned : DirAligned s d)
    (habsent : (s.dirs d).tablesPhysical (tableIndex a) = 0#32) : ¬ Reachable s a := by
  rw [hloaded.reachable_iff haligned, pageWalk_of_absent (by rw [habsent]; rfl)]
  exact Option.some_ne_none a ∘ Eq.symm

/-- If the directory is not aligned, the processor takes pointers for the first directory words.
They are even, that is not present, so that it finds nothing mapped in the first 4 MB. -/
lemma not_reachable_of_not_aligned {s : MemoryState} {d : DirPtr} {a : BitVec 32}
    (hloaded : Loaded s d) (haligned : ¬ DirAligned s d)
    (heven : ∀ i, ((s.dirs d).tables i).getLsbD 0 = false) (ha : a.toNat < 0x400000) :
    ¬ Reachable s a := by
  obtain ⟨dir, i, hdir, hword⟩ := hloaded.of_not_aligned haligned
  rintro ⟨dir', hdir', hwalk⟩
  obtain rfl : dir = dir' := Option.some_injective _ (hdir.symm.trans hdir')
  rw [pageWalk_of_absent] at hwalk
  · exact Option.some_ne_none a hwalk.symm
  · rw [tableIndex_eq_zero_iff.mpr ha, hword]
    exact heven i

/-- `map_page` with a new page table in frame `k` writes through a pointer to that frame after the
table has been entered in the directory. -/
lemma reachable_of_accessesIn {s : MemoryState} (hs : BitmapReady s) {d : DirPtr}
    {virt phys flags : BitVec 32} (hnull : (s.dirs d).tables (tableIndex virt) = NULL) {k : ℕ}
    (hleast : leastFree frameCount (markedFrames s) = some k)
    (hacc : AccessesIn Reachable (mapPage d virt phys flags) s) :
    Reachable (newTableState d (tableIndex virt) (frameAddr k) flags (allocFrame.exec s))
      (entryAddr k (entryIndex virt)) := by
  rw [mapPage, accessesIn_bind, accessesIn_bind, eval_gets, exec_gets] at hacc
  have hensure : (ensureTable d (tableIndex virt) flags).exec s =
      newTableState d (tableIndex virt) (frameAddr k) flags (allocFrame.exec s) := by
    rw [ensureTable, exec_bind, eval_gets, exec_gets, if_pos hnull, exec_newTable,
      (allocFrame_of_least hs hleast).1]
  obtain ⟨-, -, hfill⟩ := hacc
  rw [hensure, tables_newTableState, if_pos ⟨rfl, rfl⟩, ← entryAddr, fillAssignments, assignFields,
    accessesIn_bind, setEntryField, accessesIn_bind, accessesIn_loadWord] at hfill
  exact hfill.1.1

/-- When the next free frame lies in a slot the directory does not map, and the page to be mapped in
another empty slot, `map_page` writes its new page table through an unmapped address. -/
lemma not_accessesIn_of_absent {s : MemoryState} (hs : BitmapReady s) {d : DirPtr}
    (hloaded : Loaded s d) (haligned : DirAligned s d) {virt phys flags : BitVec 32}
    (hnull : (s.dirs d).tables (tableIndex virt) = NULL) {k : ℕ}
    (hleast : leastFree frameCount (markedFrames s) = some k)
    (hslot : tableIndex (entryAddr k (entryIndex virt)) ≠ tableIndex virt)
    (habsent : (s.dirs d).tablesPhysical (tableIndex (entryAddr k (entryIndex virt))) = 0#32) :
    ¬ AccessesIn Reachable (mapPage d virt phys flags) s := by
  intro hacc
  have hrest := (allocFrame_bitmapOnly hs).rest
  refine not_reachable_of_absent (d := d) ?_ ?_ ?_ (reachable_of_accessesIn hs hnull hleast hacc)
  · rw [hrest]
    exact hloaded
  · rw [hrest]
    exact haligned
  · rw [tablesPhysical_newTableState, if_neg (fun h => hslot h.2), dirs_allocFrame]
    exact habsent

/-- The address of a frame is even. -/
lemma getLsbD_frameAddr_zero (k : ℕ) : (frameAddr k).getLsbD 0 = false := by
  rw [frameAddr, BitVec.getLsbD_ofNat, Nat.testBit_zero]
  simp [Nat.mul_mod]

/-- If the kernel directory is not aligned, the first `map_page` call after `paging_init` already
writes its new page table, in frame 2, through an unmapped address. -/
lemma first_mapPage_unreachable {s₀ s : MemoryState} (hsetup : PagingSetUp 1024 s₀ s)
    (hloaded : Loaded s kernelDirectory) (haligned : ¬ DirAligned s kernelDirectory)
    {virt : BitVec 32} (hvirt : 0x400000 ≤ virt.toNat) (phys flags : BitVec 32) :
    ¬ AccessesReachable (.mapPage kernelDirectory virt phys flags) (Client.start s) := by
  intro hacc
  have hslot : tableIndex virt ≠ 0 := fun h0 => hvirt.not_gt (tableIndex_eq_zero_iff.mp h0)
  have hrest := (allocFrame_bitmapOnly hsetup.ready).rest
  have haddr := toNat_entryAddr (f := 2) (by norm_num [frameCount]) (entryIndex_lt virt)
  have hlt := entryIndex_lt virt
  refine not_reachable_of_not_aligned (d := kernelDirectory) ?_ ?_ (fun i => ?_) (by omega)
    (reachable_of_accessesIn hsetup.ready (hsetup.tables_eq _ hslot) hsetup.least hacc)
  · rw [hrest]
    exact hloaded
  · rw [hrest]
    exact haligned
  · rw [tables_newTableState, dirs_allocFrame]
    split
    · exact getLsbD_frameAddr_zero 2
    · by_cases hi : i = 0
      · rw [hi, hsetup.table]
        exact getLsbD_frameAddr_zero 1
      · rw [hsetup.tables_eq i hi]
        rfl

/-- Once the frames below 4 MB are all taken, `map_page` writes a page table in frame 1024 through
an unmapped address. -/
lemma mapPage_unreachable_of_full {s₀ s : MemoryState} {c : Client} (hsetup : PagingSetUp 1024 s₀ s)
    (hloaded : Loaded s kernelDirectory) (haligned : DirAligned s kernelDirectory)
    (hready : BitmapReady c.st) (hmarked : markedFrames c.st = Finset.range 1024)
    (hbit : BitmapOnly s c.st) (phys flags : BitVec 32) :
    ¬ AccessesReachable (.mapPage kernelDirectory 0x800000#32 phys flags) c := by
  have hdirs : c.st.dirs = s.dirs := by rw [hbit.rest]
  have hslot : tableIndex 0x800000#32 = 2 := by
    apply Fin.ext
    norm_num [tableIndex, pageSize]
  have hnull : (c.st.dirs kernelDirectory).tables (tableIndex 0x800000#32) = NULL := by
    rw [hdirs, hslot]
    exact hsetup.tables_eq 2 (by decide)
  have hleast : leastFree frameCount (markedFrames c.st) = some 1024 := by
    rw [hmarked]
    exact leastFree_range (by norm_num [frameCount])
  have hlt := entryIndex_lt 0x800000#32
  have haddr := toNat_entryAddr (f := 1024) (by norm_num [frameCount]) hlt
  have htable : tableIndex (entryAddr 1024 (entryIndex 0x800000#32)) = 1 := by
    apply Fin.ext
    simp only [tableIndex, pageSize, haddr]
    change _ = 1
    omega
  refine not_accessesIn_of_absent hready ?_ ?_ hnull hleast ?_ ?_
  · rw [hbit.rest]
    exact hloaded
  · rw [hbit.rest]
    exact haligned
  · rw [htable, hslot]
    decide
  · rw [htable, hdirs]
    exact hsetup.words_eq 1 (by decide)

/-- The machine with the page directories at `0x10D920`, which is no page boundary. -/
def unalignedState : MemoryState := { blankState with dirAddr := fun _ => ⟨0x10D920#32, rfl⟩ }

/-- After `paging_init` and 1022 allocations the first frame above 4 MB is next, and `map_page`
writes the page table it puts there through an unmapped address.  With a kernel directory that is
not page-aligned, already the first call does. -/
theorem mapPage_unreachable_after_allocFrames :
    (∃ calls, calls = List.replicate 1022 .allocFrame ++
        [.mapPage kernelDirectory 0x800000#32 0#32 0x03#32] ∧
      Along Client.step PageCall calls (Client.start (pagingInit.exec blankState)) ∧
      ¬ Along Client.step AccessesReachable calls (Client.start (pagingInit.exec blankState))) ∧
    Along Client.step PageCall [.mapPage kernelDirectory 0x800000#32 0#32 0x03#32]
        (Client.start (pagingInit.exec unalignedState)) ∧
      ¬ Along Client.step AccessesReachable [.mapPage kernelDirectory 0x800000#32 0#32 0x03#32]
        (Client.start (pagingInit.exec unalignedState)) := by
  constructor
  · obtain ⟨hsetup, hcurrent, hloaded, -⟩ := pagingInit_spec blankState
    generalize pagingInit.exec blankState = s at hsetup hcurrent hloaded ⊢
    have haligned : DirAligned s kernelDirectory := by
      rw [DirAligned, hsetup.dirAddr]
      rfl
    obtain ⟨c, hc⟩ : ∃ c, c = runActions Client.step (List.replicate 1022 .allocFrame)
        (Client.start s) := ⟨_, rfl⟩
    obtain ⟨hroom, hready, hmarked, hbit⟩ := run_allocFrames (c := Client.start s) (n := 1022)
      hsetup.ready hsetup.marked (by norm_num [frameCount]) hc
    have hcurrent' : c.st.currentDirectory = some kernelDirectory := by
      rw [hbit.rest]
      exact hcurrent
    have hnot := mapPage_unreachable_of_full hsetup hloaded haligned hready hmarked hbit 0#32
      0x03#32
    obtain ⟨hex, -⟩ := step_allocFrame_range hready hmarked (by norm_num [frameCount])
    refine ⟨_, rfl, ?_, ?_⟩ <;> rw [along_append, ← hc]
    · refine ⟨hroom.mono ?_, ⟨hcurrent', by norm_num, fun _ => hex⟩, trivial⟩
      rintro call t ⟨rfl, hroom⟩
      exact hroom
    · rintro ⟨-, hacc, -⟩
      exact hnot hacc
  · obtain ⟨hsetup, hcurrent, hloaded, -⟩ := pagingInit_spec unalignedState
    generalize pagingInit.exec unalignedState = s at hsetup hcurrent hloaded ⊢
    have haligned : ¬ DirAligned s kernelDirectory := by
      rw [DirAligned, hsetup.dirAddr]
      decide
    obtain ⟨hex, -⟩ := step_allocFrame_range (c := Client.start s) hsetup.ready hsetup.marked
      (by norm_num [frameCount])
    refine ⟨⟨⟨hcurrent, by norm_num, fun _ => hex⟩, trivial⟩, fun hacc => ?_⟩
    exact first_mapPage_unreachable hsetup hloaded haligned (by norm_num) 0#32 0x03#32 hacc.1

end VVBright
