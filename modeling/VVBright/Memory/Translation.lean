import VVBright.Memory.TableFrames

/-!
# Address translation

What the processor sees of a sequence of `map_page` calls on several directories, interleaved with
a client that allocates and frees frames.

The invariant `TransInv` links the four representations involved: the software pointers and the
directory words of each slot agree, the tables they name lie in pairwise different frames, these
frames are marked in the bitmap and are not held by the client, and frame 0 is marked so that no
table sits at the null pointer.  `mapPage_spec` says what one call does to every translation, and
the theorem about whole runs follows by induction (`walk_run_of_not_mapsPage`).
-/

namespace VVBright

open Traced

/-- The directories in `D` are coherent: in every slot either there is no table and the directory
word is not present, or the directory word is present and names the frame of the table.  The tables
are frames, pairwise different, marked, and off the bitmap; frame 0 is marked too. -/
structure Coherent (D : Set DirPtr) (s : MemoryState) : Prop where
  /-- The pointer and the directory word of a slot agree. -/
  slot : ∀ d ∈ D, ∀ i,
    ((s.dirs d).tables i = NULL ∧ ((s.dirs d).tablesPhysical i).getLsbD 0 = false) ∨
    ((s.dirs d).tables i ≠ NULL ∧ ((s.dirs d).tablesPhysical i).getLsbD 0 = true ∧
      ((s.dirs d).tablesPhysical i).toNat / 4096 = ((s.dirs d).tables i).toNat / 4096)
  /-- A table starts at a frame boundary. -/
  aligned : ∀ d ∈ D, ∀ i, ((s.dirs d).tables i).toNat % 4096 = 0
  /-- No two slots share a table frame. -/
  distinct : ∀ d ∈ D, ∀ i, ∀ d' ∈ D, ∀ i', (s.dirs d).tables i ≠ NULL →
    (s.dirs d').tables i' ≠ NULL →
    frameOf ((s.dirs d).tables i) = frameOf ((s.dirs d').tables i') → d = d' ∧ i = i'
  /-- Table frames are marked. -/
  marked : ∀ d ∈ D, ∀ i, (s.dirs d).tables i ≠ NULL →
    frameOf ((s.dirs d).tables i) ∈ markedFrames s
  /-- Table frames do not overlap the bitmap. -/
  off : ∀ d ∈ D, ∀ i, (s.dirs d).tables i ≠ NULL →
    ¬ OverlapsBitmap (frameOf ((s.dirs d).tables i))
  /-- Frame 0 is marked. -/
  zero_marked : 0 ∈ markedFrames s

/-- The next `alloc_frame` finds a frame, and the frame does not overlap the bitmap. -/
def TakesFrame (s : MemoryState) : Prop :=
  ¬ Exhausted s ∧ ¬ OverlapsBitmap (frameOf (allocFrame.eval s))

/-- What may happen in a run: allocations, frees of held frames, and `map_page` calls on the
directories in `D` with flags below `0x80`; whatever takes a frame finds one off the bitmap. -/
def TransCall (D : Set DirPtr) : Call → Client → Prop
  | .allocFrame, c => TakesFrame c.st
  | .freeFrame p, c => c.Holds p
  | .mapPage d virt _ flags, c => d ∈ D ∧ flags.toNat < 0x80 ∧
      ((c.st.dirs d).tables (tableIndex virt) = NULL → TakesFrame c.st)
  | _, _ => False

/-- The invariant of such runs. -/
structure TransInv (D : Set DirPtr) (c : Client) : Prop where
  /-- The bitmap is where `paging_init` put it. -/
  ready : BitmapReady c.st
  /-- The directories are coherent. -/
  coherent : Coherent D c.st
  /-- Held frames are marked. -/
  held_marked : ∀ q ∈ c.held, frameOf q ∈ markedFrames c.st
  /-- Frame 0 is not held. -/
  held_ne_zero : ∀ q ∈ c.held, frameOf q ≠ 0
  /-- Held frames are not table frames. -/
  held_ne_table : ∀ q ∈ c.held, ∀ d ∈ D, ∀ i, (c.st.dirs d).tables i ≠ NULL →
    frameOf q ≠ frameOf ((c.st.dirs d).tables i)

/-- The call maps the page of `virt` in the directory `d`. -/
def MapsPage (d : DirPtr) (virt : BitVec 32) : Call → Prop
  | .mapPage d' virt' _ _ => d' = d ∧ virt'.toNat / 4096 = virt.toNat / 4096
  | _ => False

/-- The translation of `virt` in the directory `d`, as the processor sees it. -/
def walk (c : Client) (d : DirPtr) (virt : BitVec 32) : Option (BitVec 32) :=
  pageWalk c.st.mem (c.st.dirs d) virt

/-! ## Slots -/

/-- A virtual page is determined by its slot and its entry. -/
lemma samePage_of_index {v w : BitVec 32} (hslot : tableIndex v = tableIndex w)
    (hentry : entryIndex v = entryIndex w) : v.toNat / 4096 = w.toNat / 4096 := by
  have h := congrArg Fin.val hslot
  simp only [tableIndex, entryIndex, pageSize] at h hentry
  omega

/-- Addresses of one page have the same slot and the same entry. -/
lemma index_of_samePage {v w : BitVec 32} (h : v.toNat / 4096 = w.toNat / 4096) :
    tableIndex v = tableIndex w ∧ entryIndex v = entryIndex w := by
  simp only [tableIndex, entryIndex, pageSize, h, and_self]

section

variable {D : Set DirPtr} {s t : MemoryState} {d : DirPtr} {i : Fin 1024}

/-- An occupied slot of a coherent directory names one frame, in the pointer and in the directory
word. -/
lemma Coherent.exists_frame (h : Coherent D s) (hd : d ∈ D) (hne : (s.dirs d).tables i ≠ NULL) :
    ∃ f, f < frameCount ∧ f ≠ 0 ∧ f ∈ markedFrames s ∧ ¬ OverlapsBitmap f ∧
      (s.dirs d).tables i = frameAddr f ∧ frameOf ((s.dirs d).tables i) = f ∧
      ((s.dirs d).tablesPhysical i).getLsbD 0 = true ∧
      ((s.dirs d).tablesPhysical i).toNat / 4096 = f := by
  have hmarked := h.marked d hd i hne
  have hlt : frameOf ((s.dirs d).tables i) < frameCount := (mem_markedFrames.mp hmarked).1
  have hlt' : frameOf ((s.dirs d).tables i) < 65536 := hlt
  have haligned := h.aligned d hd i
  have haddr : (s.dirs d).tables i = frameAddr (frameOf ((s.dirs d).tables i)) := by
    apply BitVec.eq_of_toNat_eq
    rw [toNat_frameAddr hlt, frameOf]
    omega
  have hzero : frameOf ((s.dirs d).tables i) ≠ 0 := by
    intro h0
    rw [h0] at haddr
    exact hne haddr
  rcases h.slot d hd i with ⟨hnull, -⟩ | ⟨-, hpresent, hframe⟩
  · exact absurd hnull hne
  · exact ⟨_, hlt, hzero, hmarked, h.off d hd i hne, haddr, rfl, hpresent, hframe⟩

/-- The directory word of an empty slot is not present. -/
lemma Coherent.absent (h : Coherent D s) (hd : d ∈ D) (hnull : (s.dirs d).tables i = NULL) :
    ((s.dirs d).tablesPhysical i).getLsbD 0 = false := by
  rcases h.slot d hd i with ⟨-, habsent⟩ | ⟨hne, -⟩
  · exact habsent
  · exact absurd hnull hne

/-- A change of the bitmap that keeps the table frames and frame 0 marked keeps coherence. -/
lemma Coherent.of_bitmapOnly (h : Coherent D s) (hst : BitmapOnly s t)
    (hmarked : ∀ d ∈ D, ∀ i, (s.dirs d).tables i ≠ NULL →
      frameOf ((s.dirs d).tables i) ∈ markedFrames t)
    (hzero : 0 ∈ markedFrames t) : Coherent D t := by
  have hdirs : t.dirs = s.dirs := by rw [hst.rest]
  refine ⟨?_, ?_, ?_, ?_, ?_, hzero⟩
  · rw [hdirs]; exact h.slot
  · rw [hdirs]; exact h.aligned
  · rw [hdirs]; exact h.distinct
  · rw [hdirs]; exact hmarked
  · rw [hdirs]; exact h.off

/-- A change of the bitmap does not change any translation. -/
lemma pageWalk_of_bitmapOnly (hs : BitmapReady s) (h : Coherent D s) (hst : BitmapOnly s t)
    (hd : d ∈ D) (virt : BitVec 32) :
    pageWalk t.mem (t.dirs d) virt = pageWalk s.mem (s.dirs d) virt := by
  have hdirs : t.dirs = s.dirs := by rw [hst.rest]
  rw [hdirs]
  by_cases hnull : (s.dirs d).tables (tableIndex virt) = NULL
  · have habsent := h.absent hd hnull
    rw [pageWalk_of_absent habsent, pageWalk_of_absent habsent]
  · obtain ⟨f, hf, -, -, hoff, -, -, hpresent, hframe⟩ := h.exists_frame hd hnull
    have hword := hst.off (entryAddr f (entryIndex virt))
      (entryAddr_offBitmap hf (entryIndex_lt virt) hs hoff)
    rw [pageWalk_of_frame hpresent hframe, pageWalk_of_frame hpresent hframe, ← entryAddr, hword]

end

/-! ## `map_page` on an existing table -/

section

variable {D : Set DirPtr} {s : MemoryState} {d : DirPtr} {virt : BitVec 32} {f : ℕ}

/-- Writing an entry of a table frame off the bitmap keeps coherence. -/
lemma Coherent.fillState (h : Coherent D s) (hs : BitmapReady s) (hf : f < frameCount)
    (hoff : ¬ OverlapsBitmap f) {e : ℕ} (he : e < 1024) (phys flags : BitVec 32) :
    Coherent D (fillState (entryAddr f e) phys flags s) := by
  have hmarked : markedFrames (VVBright.fillState (entryAddr f e) phys flags s) = markedFrames s :=
    markedFrames_fillState hs hf hoff he phys flags
  refine ⟨h.slot, h.aligned, h.distinct, ?_, h.off, ?_⟩
  · rw [hmarked]; exact h.marked
  · rw [hmarked]; exact h.zero_marked

/-- Writing the entry of `virt` changes the translation of the page of `virt` in the directory
that owns the table, and no other translation. -/
lemma pageWalk_fillState (h : Coherent D s) (hd : d ∈ D)
    (htable : (s.dirs d).tables (tableIndex virt) = frameAddr f) (hf : f < frameCount)
    (hf0 : f ≠ 0) (phys flags : BitVec 32) {d' : DirPtr} (hd' : d' ∈ D) (v : BitVec 32) :
    pageWalk (fillState (entryAddr f (entryIndex virt)) phys flags s).mem (s.dirs d') v =
      if d = d' ∧ virt.toNat / 4096 = v.toNat / 4096 then
        some (BitVec.ofNat 32 (phys.toNat / 4096 * 4096 + v.toNat % 4096))
      else
        pageWalk s.mem (s.dirs d') v := by
  have hne : (s.dirs d).tables (tableIndex virt) ≠ NULL := by
    rw [htable]
    exact frameAddr_ne_null hf hf0
  have hfof : frameOf ((s.dirs d).tables (tableIndex virt)) = f := by
    rw [htable, frameOf_frameAddr hf]
  by_cases hnull : (s.dirs d').tables (tableIndex v) = NULL
  · -- no table in the slot of `v`: nothing is mapped there, before or after
    have habsent := h.absent hd' hnull
    have hpage : ¬ (d = d' ∧ virt.toNat / 4096 = v.toNat / 4096) := by
      rintro ⟨rfl, hpage⟩
      rw [(index_of_samePage hpage).1] at hne
      exact hne hnull
    rw [if_neg hpage, pageWalk_of_absent habsent, pageWalk_of_absent habsent]
  · obtain ⟨f', hf', -, -, -, -, hfof', hpresent, hframe⟩ := h.exists_frame hd' hnull
    rw [pageWalk_of_frame hpresent hframe, pageWalk_of_frame hpresent hframe]
    by_cases hpage : d = d' ∧ virt.toNat / 4096 = v.toNat / 4096
    · obtain ⟨rfl, hpage⟩ := hpage
      obtain ⟨hslot, hentry⟩ := index_of_samePage hpage
      have hff : f' = f := by rw [← hfof', ← hslot, hfof]
      rw [if_pos ⟨rfl, hpage⟩, hff, ← hentry, ← entryAddr, VVBright.fillState, load32_store32_same,
        entryTarget_filledEntry]
    · have hapart : f ≠ f' ∨ entryIndex virt ≠ entryIndex v := by
        by_contra hcon
        rw [not_or, not_not, not_not] at hcon
        obtain ⟨hff, hentry⟩ := hcon
        obtain ⟨rfl, hslot⟩ := h.distinct d hd (tableIndex virt) d' hd' (tableIndex v) hne hnull
          (by rw [hfof, hfof', hff])
        exact hpage ⟨rfl, samePage_of_index hslot hentry⟩
      rw [if_neg hpage, ← entryAddr, VVBright.fillState, load32_store32_of_apart _ _
        (entryAddr_apart hf (entryIndex_lt virt) hf' (entryIndex_lt v) hapart)]

end

/-! ## `map_page` with a new table -/

section

variable {D : Set DirPtr} {s : MemoryState} {d : DirPtr} {i : Fin 1024} {k : ℕ} {flags : BitVec 32}

/-- The frame `k` can become a page table: it is a marked frame other than frame 0, off the bitmap,
and no directory in `D` uses it. -/
structure FreshFrame (D : Set DirPtr) (s : MemoryState) (k : ℕ) : Prop where
  lt : k < frameCount
  ne_zero : k ≠ 0
  marked : k ∈ markedFrames s
  off : ¬ OverlapsBitmap k
  unused : ∀ d ∈ D, ∀ i, (s.dirs d).tables i ≠ NULL → frameOf ((s.dirs d).tables i) ≠ k

/-- The frame of a new table is no other table's. -/
lemma Coherent.distinct_newTableState (h : Coherent D s) (hk : FreshFrame D s k)
    {d₁ d₂ : DirPtr} (hd₁ : d₁ ∈ D) (hd₂ : d₂ ∈ D) {i₁ i₂ : Fin 1024}
    (hne₁ : ((newTableState d i (frameAddr k) flags s).dirs d₁).tables i₁ ≠ NULL)
    (hne₂ : ((newTableState d i (frameAddr k) flags s).dirs d₂).tables i₂ ≠ NULL)
    (heq : frameOf (((newTableState d i (frameAddr k) flags s).dirs d₁).tables i₁) =
      frameOf (((newTableState d i (frameAddr k) flags s).dirs d₂).tables i₂)) :
    d₁ = d₂ ∧ i₁ = i₂ := by
  have hframe := frameOf_frameAddr hk.lt
  rw [tables_newTableState] at hne₁ hne₂
  rw [tables_newTableState, tables_newTableState] at heq
  by_cases h₁ : d₁ = d ∧ i₁ = i <;> by_cases h₂ : d₂ = d ∧ i₂ = i
  · exact ⟨h₁.1.trans h₂.1.symm, h₁.2.trans h₂.2.symm⟩
  · rw [if_pos h₁, if_neg h₂, hframe] at heq
    rw [if_neg h₂] at hne₂
    exact absurd heq.symm (hk.unused d₂ hd₂ i₂ hne₂)
  · rw [if_neg h₁, if_pos h₂, hframe] at heq
    rw [if_neg h₁] at hne₁
    exact absurd heq (hk.unused d₁ hd₁ i₁ hne₁)
  · rw [if_neg h₁] at hne₁
    rw [if_neg h₂] at hne₂
    rw [if_neg h₁, if_neg h₂] at heq
    exact h.distinct d₁ hd₁ i₁ d₂ hd₂ i₂ hne₁ hne₂ heq

/-- Adding a table in an unused frame keeps coherence. -/
lemma Coherent.newTableState (h : Coherent D s) (hs : BitmapReady s) (hk : FreshFrame D s k)
    (hflags : flags.toNat < 0x80) :
    Coherent D (newTableState d i (frameAddr k) flags s) := by
  have hmarked := markedFrames_newTableState hs d i flags hk.lt hk.off
  have hframe := frameOf_frameAddr hk.lt
  refine ⟨?_, ?_, ?_, ?_, ?_, ?_⟩
  · intro d' hd' i'
    rw [tables_newTableState, tablesPhysical_newTableState]
    by_cases hslot : d' = d ∧ i' = i
    · rw [if_pos hslot, if_pos hslot]
      refine Or.inr ⟨frameAddr_ne_null hk.lt hk.ne_zero, directoryWord_present _ _, ?_⟩
      rw [directoryWord_frame hk.lt hflags, ← frameOf, hframe]
    · rw [if_neg hslot, if_neg hslot]
      exact h.slot d' hd' i'
  · intro d' hd' i'
    rw [tables_newTableState]
    split
    · rw [toNat_frameAddr hk.lt]
      omega
    · exact h.aligned d' hd' i'
  · intro d₁ hd₁ i₁ d₂ hd₂ i₂ hne₁ hne₂ heq
    exact h.distinct_newTableState hk hd₁ hd₂ hne₁ hne₂ heq
  · intro d' hd' i'
    rw [tables_newTableState, hmarked]
    split
    · intro _
      rw [hframe]
      exact hk.marked
    · exact h.marked d' hd' i'
  · intro d' hd' i'
    rw [tables_newTableState]
    split
    · intro _
      rw [hframe]
      exact hk.off
    · exact h.off d' hd' i'
  · rw [hmarked]
    exact h.zero_marked

/-- Adding a table to an empty slot changes no translation: the pages of the slot were not mapped,
and the entries of the new table are cleared. -/
lemma pageWalk_newTableState (h : Coherent D s) (hd : d ∈ D) (hnull : (s.dirs d).tables i = NULL)
    (hk : FreshFrame D s k) (hflags : flags.toNat < 0x80) {d' : DirPtr} (hd' : d' ∈ D)
    (v : BitVec 32) :
    pageWalk (newTableState d i (frameAddr k) flags s).mem
        ((newTableState d i (frameAddr k) flags s).dirs d') v = pageWalk s.mem (s.dirs d') v := by
  have hpde := tablesPhysical_newTableState d i (frameAddr k) flags s d' (tableIndex v)
  by_cases hslot : d' = d ∧ tableIndex v = i
  · -- the new table: every entry is clear
    rw [if_pos hslot] at hpde
    have hcleared : load32 (newTableState d i (frameAddr k) flags s).mem
        (wordAddr (frameAddr k) (entryIndex v)) = clearedEntry :=
      load32_clearTableMem _ _ le_rfl (entryIndex_lt v)
    have habsent : ((s.dirs d').tablesPhysical (tableIndex v)).getLsbD 0 = false := by
      rw [hslot.1, hslot.2]
      exact h.absent hd hnull
    rw [pageWalk_of_absent habsent, pageWalk_of_frame (f := k), hcleared, entryTarget_clearedEntry]
    · rw [hpde]
      exact directoryWord_present _ _
    · rw [hpde]
      exact directoryWord_frame hk.lt hflags
  · rw [if_neg hslot] at hpde
    by_cases hnull' : (s.dirs d').tables (tableIndex v) = NULL
    · have habsent := h.absent hd' hnull'
      rw [pageWalk_of_absent habsent, pageWalk_of_absent (by rw [hpde]; exact habsent)]
    · -- another table: its frame is not the new one
      obtain ⟨f, hf, -, -, -, -, hfof, hpresent, hframe⟩ := h.exists_frame hd' hnull'
      have hne : k ≠ f := by
        rw [← hfof]
        exact (hk.unused d' hd' _ hnull').symm
      have hword : load32 (newTableState d i (frameAddr k) flags s).mem
          (entryAddr f (entryIndex v)) = load32 s.mem (entryAddr f (entryIndex v)) :=
        load32_clearTableMem_of_off _ (entryAddr_offTable hf (entryIndex_lt v) hk.lt hne) le_rfl
      rw [pageWalk_of_frame hpresent hframe, ← entryAddr, ← hword, entryAddr]
      exact pageWalk_of_frame (by rw [hpde]; exact hpresent) (by rw [hpde]; exact hframe)

end

/-! ## One call -/

section

variable {D : Set DirPtr} {s : MemoryState}

/-- An allocation that finds a frame off the bitmap makes it usable as a page table, and changes
neither coherence nor any translation. -/
lemma allocFrame_fresh (hs : BitmapReady s) (h : Coherent D s) (htakes : TakesFrame s) :
    ∃ k, leastFree frameCount (markedFrames s) = some k ∧
      allocFrame.eval s = frameAddr k ∧ k ∉ markedFrames s ∧
      markedFrames (allocFrame.exec s) = insert k (markedFrames s) ∧
      Coherent D (allocFrame.exec s) ∧ FreshFrame D (allocFrame.exec s) k := by
  obtain ⟨hex, hoff⟩ := htakes
  obtain ⟨k, hk⟩ := exists_leastFree hs hex
  obtain ⟨hlt, hfree, -⟩ := leastFree_eq_some_iff.mp hk
  have heval := (allocFrame_of_least hs hk).1
  have hmarked := markedFrames_allocFrame hs hk
  rw [heval, frameOf_frameAddr hlt] at hoff
  refine ⟨k, hk, heval, hfree, hmarked, ?_, hlt, ?_, ?_, hoff, ?_⟩
  · refine h.of_bitmapOnly (allocFrame_bitmapOnly hs) ?_ ?_
    · intro d hd i hne
      rw [hmarked]
      exact Finset.mem_insert_of_mem (h.marked d hd i hne)
    · rw [hmarked]
      exact Finset.mem_insert_of_mem h.zero_marked
  · rintro rfl
    exact hfree h.zero_marked
  · rw [hmarked]
    exact Finset.mem_insert_self _ _
  · rw [dirs_allocFrame]
    rintro d hd i hne rfl
    exact hfree (h.marked d hd i hne)

/-- What `map_page` does to the directories in `D`: it keeps their invariant, keeps marked frames
marked, uses only old table frames or frames that were not marked, and maps the page of `virt` and
no other page. -/
structure MapPageEffect (D : Set DirPtr) (d : DirPtr) (virt phys : BitVec 32) (s t : MemoryState) :
    Prop where
  ready : BitmapReady t
  coherent : Coherent D t
  marked : markedFrames s ⊆ markedFrames t
  tables : ∀ d' i', (t.dirs d').tables i' = (s.dirs d').tables i' ∨
    frameOf ((t.dirs d').tables i') ∉ markedFrames s
  walk : ∀ d' ∈ D, ∀ v, pageWalk t.mem (t.dirs d') v =
    if d = d' ∧ virt.toNat / 4096 = v.toNat / 4096 then
      some (BitVec.ofNat 32 (phys.toNat / 4096 * 4096 + v.toNat % 4096))
    else
      pageWalk s.mem (s.dirs d') v

lemma mapPage_spec_of_null (hs : BitmapReady s) (h : Coherent D s) {d : DirPtr} (hd : d ∈ D)
    {virt flags : BitVec 32} (phys : BitVec 32) (hflags : flags.toNat < 0x80)
    (hnull : (s.dirs d).tables (tableIndex virt) = NULL) (htakes : TakesFrame s) {t : MemoryState}
    (ht : t = (mapPage d virt phys flags).exec s) : MapPageEffect D d virt phys s t := by
  obtain ⟨k, hleast, heval, hfree, -, hcoh, hfresh⟩ := allocFrame_fresh hs h htakes
  have hbit := allocFrame_bitmapOnly hs
  have hready := hbit.ready hs
  set u := newTableState d (tableIndex virt) (frameAddr k) flags (allocFrame.exec s) with hu
  have huready : BitmapReady u := hready.newTableState _ _ _ _
  have hucoh : Coherent D u := hcoh.newTableState hready hfresh hflags
  have htable : (u.dirs d).tables (tableIndex virt) = frameAddr k := by
    rw [hu, tables_newTableState, if_pos ⟨rfl, rfl⟩]
  have hmarkedt : markedFrames t = insert k (markedFrames s) :=
    mapPage_markedFrames_of_null ht hs hnull hleast hfresh.off
  have htables := mapPage_tables_of_null ht hs hnull hleast
  have hreadyt := mapPage_ready ht hs
  rw [exec_mapPage_of_null phys flags hnull, heval, ← hu, ← entryAddr] at ht
  refine ⟨hreadyt, ?_, ?_, ?_, ?_⟩
  · rw [ht]
    exact hucoh.fillState huready hfresh.lt hfresh.off (entryIndex_lt virt) phys flags
  · rw [hmarkedt]
    exact Finset.subset_insert _ _
  · intro d' i'
    rw [htables]
    split
    · rw [frameOf_frameAddr hfresh.lt]
      exact Or.inr hfree
    · exact Or.inl rfl
  · intro d' hd' v
    have hfill := pageWalk_fillState hucoh hd htable hfresh.lt hfresh.ne_zero phys flags hd' v
    have hnew := pageWalk_newTableState hcoh hd (by rw [dirs_allocFrame]; exact hnull) hfresh hflags
      hd' v
    rw [← hu] at hnew
    rw [hnew, pageWalk_of_bitmapOnly hs h hbit hd' v] at hfill
    rw [ht]
    exact hfill

lemma mapPage_spec_of_table (hs : BitmapReady s) (h : Coherent D s) {d : DirPtr} (hd : d ∈ D)
    {virt : BitVec 32} (phys flags : BitVec 32)
    (htable : (s.dirs d).tables (tableIndex virt) ≠ NULL) {t : MemoryState}
    (ht : t = (mapPage d virt phys flags).exec s) : MapPageEffect D d virt phys s t := by
  obtain ⟨f, hf, hf0, -, hoff, hframe, -, -, -⟩ := h.exists_frame hd htable
  have hne : frameAddr f ≠ NULL := frameAddr_ne_null hf hf0
  obtain ⟨hmarked, hdirs⟩ := mapPage_of_table ht hs hframe hne hf hoff
  have hreadyt := mapPage_ready ht hs
  rw [exec_mapPage_of_table phys flags hframe hne, ← entryAddr] at ht
  refine ⟨hreadyt, ?_, ?_, ?_, ?_⟩
  · rw [ht]
    exact h.fillState hs hf hoff (entryIndex_lt virt) phys flags
  · rw [hmarked]
  · intro d' i'
    left
    rw [hdirs]
  · intro d' hd' v
    rw [ht]
    exact pageWalk_fillState h hd hframe hf hf0 phys flags hd' v

theorem mapPage_spec (hs : BitmapReady s) (h : Coherent D s) {d : DirPtr} (hd : d ∈ D)
    {virt flags : BitVec 32} (phys : BitVec 32) (hflags : flags.toNat < 0x80)
    (htakes : (s.dirs d).tables (tableIndex virt) = NULL → TakesFrame s) {t : MemoryState}
    (ht : t = (mapPage d virt phys flags).exec s) : MapPageEffect D d virt phys s t := by
  by_cases hnull : (s.dirs d).tables (tableIndex virt) = NULL
  · exact mapPage_spec_of_null hs h hd phys hflags hnull (htakes hnull) ht
  · exact mapPage_spec_of_table hs h hd phys flags hnull ht

end

/-! ## Runs -/

section

variable {D : Set DirPtr} {c : Client}

/-- An address in a held frame is an address of managed memory. -/
lemma TransInv.toNat_lt (h : TransInv D c) {p : BitVec 32} (hp : c.Holds p) :
    p.toNat < 2 ^ 28 := by
  obtain ⟨q, hq, hqp⟩ := hp
  have hlt : frameOf q < 65536 := (mem_markedFrames.mp (h.held_marked q hq)).1
  rw [hqp, frameOf] at hlt
  omega

/-- A client allocation keeps the invariant. -/
lemma TransInv.allocFrame (h : TransInv D c) (htakes : TakesFrame c.st) :
    TransInv D (Client.step .allocFrame c) := by
  obtain ⟨k, -, heval, hfree, hmarked, hcoh, hfresh⟩ := allocFrame_fresh h.ready h.coherent htakes
  have hframe : frameOf (VVBright.allocFrame.eval c.st) = k := by
    rw [heval, frameOf_frameAddr hfresh.lt]
  rw [Client.step_allocFrame htakes.1]
  refine ⟨(allocFrame_bitmapOnly h.ready).ready h.ready, hcoh, ?_, ?_, ?_⟩
  · intro q hq
    change frameOf q ∈ markedFrames (VVBright.allocFrame.exec c.st)
    rw [hmarked]
    rcases List.mem_cons.mp hq with rfl | hq
    · rw [hframe]
      exact Finset.mem_insert_self _ _
    · exact Finset.mem_insert_of_mem (h.held_marked q hq)
  · intro q hq
    rcases List.mem_cons.mp hq with rfl | hq
    · rw [hframe]
      exact hfresh.ne_zero
    · exact h.held_ne_zero q hq
  · intro q hq d hd i
    change ((VVBright.allocFrame.exec c.st).dirs d).tables i ≠ NULL →
      frameOf q ≠ frameOf (((VVBright.allocFrame.exec c.st).dirs d).tables i)
    rcases List.mem_cons.mp hq with rfl | hq
    · intro hne
      rw [hframe]
      exact (hfresh.unused d hd i hne).symm
    · rw [dirs_allocFrame]
      exact h.held_ne_table q hq d hd i

/-- Freeing a held frame keeps the invariant. -/
lemma TransInv.freeFrame (h : TransInv D c) {p : BitVec 32} (hp : c.Holds p) :
    TransInv D (Client.step (.freeFrame p) c) := by
  have hbit := freeFrame_bitmapOnly c.st (h.toNat_lt hp)
  have hmarked := markedFrames_freeFrame c.st (h.toNat_lt hp)
  obtain ⟨q₀, hq₀, hq₀p⟩ := hp
  have hkeep : ∀ k, k ∈ markedFrames c.st → k ≠ frameOf p →
      k ∈ markedFrames ((VVBright.freeFrame p).exec c.st) := by
    intro k hk hne
    rw [hmarked]
    exact Finset.mem_erase.mpr ⟨hne, hk⟩
  refine ⟨hbit.ready h.ready, h.coherent.of_bitmapOnly hbit ?_ ?_, ?_, ?_, ?_⟩
  · intro d hd i hne
    refine hkeep _ (h.coherent.marked d hd i hne) ?_
    rw [← hq₀p]
    exact (h.held_ne_table q₀ hq₀ d hd i hne).symm
  · refine hkeep 0 h.coherent.zero_marked ?_
    rw [← hq₀p]
    exact (h.held_ne_zero q₀ hq₀).symm
  · intro q hq
    obtain ⟨hq, hne⟩ := List.mem_filter.mp hq
    exact hkeep _ (h.held_marked q hq) (of_decide_eq_true hne)
  · intro q hq
    exact h.held_ne_zero q (List.mem_of_mem_filter hq)
  · intro q hq
    have hdirs : ((VVBright.freeFrame p).exec c.st).dirs = c.st.dirs := by rw [hbit.rest]
    change ∀ d ∈ D, ∀ i, (((VVBright.freeFrame p).exec c.st).dirs d).tables i ≠ NULL →
      frameOf q ≠ frameOf ((((VVBright.freeFrame p).exec c.st).dirs d).tables i)
    rw [hdirs]
    exact h.held_ne_table q (List.mem_of_mem_filter hq)

/-- Every permitted call keeps the invariant. -/
theorem TransInv.step {call : Call} (h : TransInv D c) (hcall : TransCall D call c) :
    TransInv D (Client.step call c) := by
  cases call with
  | allocFrame => exact h.allocFrame hcall
  | freeFrame p => exact h.freeFrame hcall
  | mapPage d virt phys flags =>
    obtain ⟨hd, hflags, htakes⟩ := hcall
    obtain ⟨hready, hcoh, hsub, htables, -⟩ :=
      mapPage_spec h.ready h.coherent hd phys hflags htakes rfl
    refine ⟨hready, hcoh, fun q hq => hsub (h.held_marked q hq), h.held_ne_zero, ?_⟩
    intro q hq d' hd' i hne
    -- a table frame is an old one, or was not marked while the held frames were
    rcases htables d' i with hold | hnew
    · change ((mapPage d virt phys flags).exec c.st |>.dirs d').tables i ≠ NULL at hne
      change frameOf q ≠ frameOf (((mapPage d virt phys flags).exec c.st |>.dirs d').tables i)
      rw [hold] at hne ⊢
      exact h.held_ne_table q hq d' hd' i hne
    · intro heq
      exact hnew (heq ▸ h.held_marked q hq)
  | kmalloc _ => exact hcall.elim
  | kfree _ => exact hcall.elim

/-- A permitted call that does not map the page of `v` in `d` leaves its translation alone. -/
theorem walk_step_of_not_mapsPage {call : Call} (h : TransInv D c) (hcall : TransCall D call c)
    {d : DirPtr} (hd : d ∈ D) {v : BitVec 32} (hnot : ¬ MapsPage d v call) :
    walk (Client.step call c) d v = walk c d v := by
  cases call with
  | allocFrame =>
    have hst : (Client.step .allocFrame c).st = allocFrame.exec c.st := by
      rw [Client.step_allocFrame hcall.1]
    rw [walk, walk, hst]
    exact pageWalk_of_bitmapOnly h.ready h.coherent (allocFrame_bitmapOnly h.ready) hd v
  | freeFrame p =>
    exact pageWalk_of_bitmapOnly h.ready h.coherent
      (freeFrame_bitmapOnly c.st (h.toNat_lt hcall)) hd v
  | mapPage d' virt phys flags =>
    obtain ⟨hd', hflags, htakes⟩ := hcall
    obtain ⟨-, -, -, -, hwalk⟩ :=
      mapPage_spec h.ready h.coherent hd' phys hflags htakes rfl
    have hone := hwalk d hd v
    rw [MapsPage] at hnot
    rw [if_neg hnot] at hone
    exact hone
  | kmalloc _ => exact hcall.elim
  | kfree _ => exact hcall.elim

/-- A run in which no call maps the page of `v` in `d` leaves its translation alone. -/
lemma walk_run_of_not_mapsPage {calls : List Call} (h : TransInv D c)
    (hrun : Along Client.step (TransCall D) calls c) {d : DirPtr} (hd : d ∈ D) {v : BitVec 32}
    (hnot : ∀ call ∈ calls, ¬ MapsPage d v call) :
    walk (runActions Client.step calls c) d v = walk c d v := by
  induction calls generalizing c with
  | nil => rfl
  | cons call calls ih =>
    obtain ⟨hcall, hrest⟩ := hrun
    rw [runActions, ih (h.step hcall) hrest fun call' h' => hnot call' (List.mem_cons_of_mem _ h'),
      walk_step_of_not_mapsPage h hcall hd (hnot call List.mem_cons_self)]

end

/-- **Address translation is last-writer-wins, directory by directory.**  Let the directories in
`D` be coherent, and let allocations, frees of held frames and `map_page` calls on these directories
follow in any order.  For every directory `d` in `D` and every virtual address `v`, the walk of the
processor gives the page of the last call that mapped the page of `v` in `d`, and what it gave
at the start when no call did. -/
theorem translation_lastWriterWins (D : Set DirPtr) (s : MemoryState) (hs : BitmapReady s)
    (hcoh : Coherent D s) (calls : List Call)
    (hrun : Along Client.step (TransCall D) calls (Client.start s)) {d : DirPtr} (hd : d ∈ D)
    (v : BitVec 32) :
    let c := runActions Client.step calls (Client.start s)
    (∀ before virt phys flags after,
      calls = before ++ Call.mapPage d virt phys flags :: after →
      virt.toNat / 4096 = v.toNat / 4096 → (∀ call ∈ after, ¬ MapsPage d v call) →
      pageWalk c.st.mem (c.st.dirs d) v =
        some (BitVec.ofNat 32 (phys.toNat / 4096 * 4096 + v.toNat % 4096))) ∧
    ((∀ call ∈ calls, ¬ MapsPage d v call) →
      pageWalk c.st.mem (c.st.dirs d) v = pageWalk s.mem (s.dirs d) v) := by
  have hstart : TransInv D (Client.start s) :=
    ⟨hs, hcoh, by simp [Client.start], by simp [Client.start], by simp [Client.start]⟩
  refine ⟨?_, fun hnot => walk_run_of_not_mapsPage hstart hrun hd hnot⟩
  intro before virt phys flags after hcalls hpage hafter
  rw [hcalls, along_append] at hrun
  obtain ⟨hbefore, hmap, hrest⟩ := hrun
  have hinv : TransInv D (runActions Client.step before (Client.start s)) :=
    hbefore.invariant hstart fun call t ht hok => ht.step hok
  have hwalk := walk_run_of_not_mapsPage (hinv.step hmap) hrest hd hafter
  obtain ⟨hd', hflags, htakes⟩ := hmap
  obtain ⟨-, -, -, -, hspec⟩ :=
    mapPage_spec hinv.ready hinv.coherent hd' phys hflags htakes rfl
  have hone := hspec d hd v
  rw [if_pos ⟨rfl, hpage⟩] at hone
  rw [hcalls, runActions_append]
  exact hwalk.trans hone

/-- Empty directories in a state where only frame 0 is taken are coherent. -/
lemma coherent_allocFrame_emptyBitmap :
    BitmapReady (allocFrame.exec emptyBitmap) ∧
      markedFrames (allocFrame.exec emptyBitmap) = Finset.range 1 ∧
      Coherent Set.univ (allocFrame.exec emptyBitmap) := by
  have hbit := allocFrame_bitmapOnly emptyBitmap_ready
  have hmarked : markedFrames (allocFrame.exec emptyBitmap) = Finset.range 1 := by
    rw [markedFrames_allocFrame emptyBitmap_ready (k := 0), markedFrames_emptyBitmap]
    · rfl
    · rw [markedFrames_emptyBitmap]
      exact leastFree_range (by norm_num [frameCount])
  have hdirs : (allocFrame.exec emptyBitmap).dirs = blankState.dirs := by rw [hbit.rest]; rfl
  refine ⟨hbit.ready emptyBitmap_ready, hmarked, ?_⟩
  generalize allocFrame.exec emptyBitmap = s at hmarked hdirs
  have hnull : ∀ d i, (s.dirs d).tables i = NULL := by rw [hdirs]; exact fun _ _ => rfl
  refine ⟨?_, ?_, ?_, ?_, ?_, ?_⟩
  · intro d _ i
    refine Or.inl ⟨hnull d i, ?_⟩
    simp [hdirs, blankState]
  · intro d _ i
    rw [hnull]
    rfl
  · intro d _ i d' _ i' hne
    exact absurd (hnull d i) hne
  · intro d _ i hne
    exact absurd (hnull d i) hne
  · intro d _ i hne
    exact absurd (hnull d i) hne
  · rw [hmarked]
    exact Finset.mem_range.mpr (by norm_num)

/-- After the first frames have been taken the next one is off the bitmap, up to frame 256. -/
lemma takesFrame_of_range {s : MemoryState} (hs : BitmapReady s) {m : ℕ}
    (hmarked : markedFrames s = Finset.range m) (hm : m < 256) : TakesFrame s := by
  have hlt : m < frameCount := by
    rw [frameCount]
    omega
  obtain ⟨hex, heval, -, -⟩ := step_allocFrame_range (c := Client.start s) hs hmarked hlt
  change allocFrame.eval s = frameAddr m at heval
  refine ⟨hex, ?_⟩
  rw [heval, frameOf_frameAddr hlt, overlapsBitmap_iff]
  omega

/-- A page mapped in two directories and then anew in the first: the first directory has the later
frame, the second its own. -/
theorem translation_lastWriterWins_remapped :
    let c := runActions Client.step
      [.mapPage kernelDirectory 0x400000#32 0x5000#32 0x03#32,
        .mapPage 1 0x400000#32 0x7000#32 0x07#32,
        .mapPage kernelDirectory 0x400000#32 0x6000#32 0x03#32]
      (Client.start (allocFrame.exec emptyBitmap))
    pageWalk c.st.mem (c.st.dirs kernelDirectory) 0x400123#32 = some 0x6123#32 ∧
      pageWalk c.st.mem (c.st.dirs 1) 0x400123#32 = some 0x7123#32 := by
  obtain ⟨hready, hmarked, hcoh⟩ := coherent_allocFrame_emptyBitmap
  have hnull : ∀ d i, ((allocFrame.exec emptyBitmap).dirs d).tables i = NULL := by
    rw [dirs_allocFrame]
    exact fun _ _ => rfl
  generalize allocFrame.exec emptyBitmap = s at hready hmarked hcoh hnull ⊢
  -- the tables of the two directories are taken from the frames 1 and 2
  obtain ⟨c₁, hc₁⟩ : ∃ c, c = Client.step (.mapPage kernelDirectory 0x400000#32 0x5000#32 0x03#32)
      (Client.start s) := ⟨_, rfl⟩
  obtain ⟨c₂, hc₂⟩ : ∃ c, c = Client.step (.mapPage 1 0x400000#32 0x7000#32 0x07#32) c₁ := ⟨_, rfl⟩
  have ht : c₁.st = (mapPage kernelDirectory 0x400000#32 0x5000#32 0x03#32).exec s := by
    rw [hc₁]
    rfl
  have hu : c₂.st = (mapPage 1 0x400000#32 0x7000#32 0x07#32).exec c₁.st := by
    rw [hc₂]
    rfl
  have hleast : leastFree frameCount (markedFrames s) = some 1 := by
    rw [hmarked]
    exact leastFree_range (by norm_num [frameCount])
  have hoff : ¬ OverlapsBitmap 1 := by
    rw [overlapsBitmap_iff]
    norm_num
  have hready' := mapPage_ready ht hready
  have hmarked' : markedFrames c₁.st = Finset.range 2 := by
    rw [mapPage_markedFrames_of_null ht hready (hnull _ _) hleast hoff, hmarked]
    exact Finset.range_add_one.symm
  have htables := mapPage_tables_of_null ht hready (hnull _ _) hleast
  have hnull' : (c₁.st.dirs 1).tables (tableIndex 0x400000#32) = NULL := by
    rw [htables, if_neg (by decide)]
    exact hnull _ _
  have hleast' : leastFree frameCount (markedFrames c₁.st) = some 2 := by
    rw [hmarked']
    exact leastFree_range (by norm_num [frameCount])
  have htable : (c₂.st.dirs kernelDirectory).tables (tableIndex 0x400000#32) ≠ NULL := by
    rw [mapPage_tables_of_null hu hready' hnull' hleast', if_neg (by decide), htables,
      if_pos ⟨rfl, rfl⟩]
    exact frameAddr_ne_null (by norm_num [frameCount]) (by norm_num)
  have htakes := takesFrame_of_range hready hmarked (by norm_num)
  have htakes' := takesFrame_of_range hready' hmarked' (by norm_num)
  have hrun : Along Client.step (TransCall Set.univ)
      [.mapPage kernelDirectory 0x400000#32 0x5000#32 0x03#32,
        .mapPage 1 0x400000#32 0x7000#32 0x07#32,
        .mapPage kernelDirectory 0x400000#32 0x6000#32 0x03#32] (Client.start s) := by
    refine ⟨⟨Set.mem_univ _, by norm_num, fun _ => htakes⟩, ?_⟩
    rw [← hc₁]
    refine ⟨⟨Set.mem_univ _, by norm_num, fun _ => htakes'⟩, ?_⟩
    rw [← hc₂]
    exact ⟨⟨Set.mem_univ _, by norm_num, fun h => absurd h htable⟩, trivial⟩
  have hwalk := fun d => translation_lastWriterWins Set.univ s hready hcoh _ hrun
    (Set.mem_univ d) 0x400123#32
  exact ⟨(hwalk kernelDirectory).1 [_, _] 0x400000#32 0x6000#32 0x03#32 [] rfl (by norm_num)
      (by simp),
    (hwalk 1).1 [_] 0x400000#32 0x7000#32 0x07#32 [_] rfl (by norm_num)
      (by simp [MapsPage, kernelDirectory])⟩

end VVBright
