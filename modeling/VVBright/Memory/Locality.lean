import VVBright.Memory.Ownership

/-!
# What the memory manager reads

The manager keeps its data in physical memory: the bitmap at 1 MB and the page tables.  These are
all the bytes it depends on.  Two states that agree on them, and on the variables, are taken by
every call to states that agree on them again, and the call returns the same to both
(`SameManager.step`); what other memory holds makes no difference.  A new page table is cleared
before it is read, so the frame it is put in may have held anything.
-/

namespace VVBright

open Traced

/-- The states agree on the bytes in `X` and on everything but memory. -/
structure AgreeOn (X : Set (BitVec 32)) (s t : MemoryState) : Prop where
  rest : t = { s with mem := t.mem }
  bytes : ∀ x ∈ X, t.mem x = s.mem x

/-- The bytes of the bitmap. -/
def bitmapBytes : Set (BitVec 32) := {x | 0x100000 ≤ x.toNat ∧ x.toNat < 0x102000}

/-- The bytes of the frame `f`. -/
def frameBytes (f : ℕ) : Set (BitVec 32) := {x | frameOf x = f}

/-- The bytes the manager keeps its data in: the bitmap and the page tables of all directories. -/
def managerBytes (s : MemoryState) : Set (BitVec 32) :=
  bitmapBytes ∪ {x | ∃ slot, tableFrame s slot ≠ 0 ∧ x ∈ frameBytes (tableFrame s slot)}

section

variable {X : Set (BitVec 32)} {s t : MemoryState}

lemma AgreeOn.mono {Y : Set (BitVec 32)} (h : AgreeOn X s t) (hY : Y ⊆ X) : AgreeOn Y s t :=
  ⟨h.rest, fun x hx => h.bytes x (hY hx)⟩

/-! ## The bitmap -/

lemma AgreeOn.frameWord (h : AgreeOn X s t) (hX : bitmapBytes ⊆ X) (hs : BitmapReady s) {i : ℕ}
    (hi : i < 2048) : VVBright.frameWord t i = VVBright.frameWord s i := by
  have hframes : t.frames = s.frames := by rw [h.rest]
  have hword : (wordAddr 0x100000#32 i).toNat = 0x100000 + 4 * i :=
    toNat_wordAddr (by change 0x100000 + 4 * i < _; omega)
  rw [VVBright.frameWord, VVBright.frameWord, hframes, hs.frames_eq]
  refine load32_congr fun x hx => h.bytes x (hX ?_)
  change 0x100000 ≤ x.toNat ∧ x.toNat < 0x102000
  bv_omega

lemma AgreeOn.markedFrames (h : AgreeOn X s t) (hX : bitmapBytes ⊆ X) (hs : BitmapReady s) :
    VVBright.markedFrames t = VVBright.markedFrames s :=
  markedFrames_congr fun _ hi => h.frameWord hX hs hi

lemma AgreeOn.ready (h : AgreeOn X s t) (hs : BitmapReady s) : BitmapReady t := by
  rw [h.rest]
  exact ⟨hs.frames_eq, hs.nFrames_eq⟩

/-- Storing one word in both states. -/
lemma AgreeOn.store32 (h : AgreeOn X s t) (a v : BitVec 32) :
    AgreeOn X { s with mem := VVBright.store32 s.mem a v }
      { t with mem := VVBright.store32 t.mem a v } := by
  refine ⟨?_, fun x hx => store32_congr a v (h.bytes x hx)⟩
  rw [h.rest]

lemma AgreeOn.storeFrameWord (h : AgreeOn X s t) (i : ℕ) (v : BitVec 32) :
    AgreeOn X (VVBright.storeFrameWord s i v) (VVBright.storeFrameWord t i v) := by
  have hword : wordAddr t.frames i = wordAddr s.frames i := by rw [h.rest]
  rw [VVBright.storeFrameWord, VVBright.storeFrameWord, hword]
  exact h.store32 _ v

lemma AgreeOn.freeFrame (h : AgreeOn X s t) (hX : bitmapBytes ⊆ X) (hs : BitmapReady s)
    {p : BitVec 32} (hp : p.toNat < 2 ^ 28) :
    AgreeOn X ((VVBright.freeFrame p).exec s) ((VVBright.freeFrame p).exec t) := by
  rw [VVBright.freeFrame, exec_clearFrame, exec_clearFrame, h.frameWord hX hs (by omega)]
  exact h.storeFrameWord _ _

/-- `alloc_frame` finds the same frame in both states. -/
lemma AgreeOn.allocFrame (h : AgreeOn X s t) (hX : bitmapBytes ⊆ X) (hs : BitmapReady s) :
    VVBright.allocFrame.eval t = VVBright.allocFrame.eval s ∧
      AgreeOn X (VVBright.allocFrame.exec s) (VVBright.allocFrame.exec t) := by
  have ht := h.ready hs
  have hmarked := h.markedFrames hX hs
  cases hleast : leastFree frameCount (VVBright.markedFrames s) with
  | none =>
    have hs' := allocFrame_of_full hs hleast
    have ht' := allocFrame_of_full ht (by rw [hmarked, hleast])
    rw [hs'.1, hs'.2, ht'.1, ht'.2]
    exact ⟨rfl, h⟩
  | some k =>
    have hk : k < 65536 := (leastFree_eq_some_iff.mp hleast).1
    have haddr := toNat_frameAddr hk
    have hs' := allocFrame_of_least hs hleast
    have ht' := allocFrame_of_least ht (by rw [hmarked, hleast])
    rw [hs'.1, hs'.2, ht'.1, ht'.2, exec_setFrame, exec_setFrame, h.frameWord hX hs (by omega)]
    exact ⟨rfl, h.storeFrameWord _ _⟩

/-! ## Page tables -/

/-- Filling an entry of a table that the states agree on. -/
lemma AgreeOn.fillState (h : AgreeOn X s t) {f e : ℕ} (hf : f < frameCount) (he : e < 1024)
    (hX : frameBytes f ⊆ X) (phys flags : BitVec 32) :
    AgreeOn X (VVBright.fillState (entryAddr f e) phys flags s)
      (VVBright.fillState (entryAddr f e) phys flags t) := by
  have haddr := toNat_entryAddr hf he
  rw [frameCount] at hf
  have hentry : load32 t.mem (entryAddr f e) = load32 s.mem (entryAddr f e) := by
    refine load32_congr fun x hx => h.bytes x (hX ?_)
    change x.toNat / 4096 = f
    bv_omega
  rw [VVBright.fillState, VVBright.fillState, hentry]
  exact h.store32 _ _

/-- The loop that clears a table makes no byte different. -/
lemma clearTableMem_congr {m m' : Memory} {x : BitVec 32} (table : BitVec 32) (n : ℕ)
    (h : m x = m' x) : clearTableMem table m n x = clearTableMem table m' n x := by
  induction n with
  | zero => exact h
  | succ n ih => exact store32_congr _ _ ih

/-- Clearing a table determines every byte of its frame. -/
lemma clearTableMem_of_mem_frame (m m' : Memory) {k : ℕ} (hk : k < frameCount) {x : BitVec 32}
    (hx : x ∈ frameBytes k) :
    clearTableMem (frameAddr k) m 1024 x = clearTableMem (frameAddr k) m' 1024 x := by
  have hframe : x.toNat / 4096 = k := hx
  have he : x.toNat % 4096 / 4 < 1024 := by omega
  have haddr : (entryAddr k (x.toNat % 4096 / 4)).toNat = _ := toNat_entryAddr hk he
  refine byte_eq_of_load32_eq (a := wordAddr (frameAddr k) (x.toNat % 4096 / 4)) ?_ ?_
  · rw [load32_clearTableMem _ _ le_rfl he, load32_clearTableMem _ _ le_rfl he]
  · rw [← entryAddr]
    bv_omega

/-- Afterwards the states agree on the new table too, whatever its frame held. -/
lemma AgreeOn.newTableState (h : AgreeOn X s t) (d : DirPtr) (i : Fin 1024) {k : ℕ}
    (hk : k < frameCount) (flags : BitVec 32) :
    AgreeOn (X ∪ frameBytes k) (VVBright.newTableState d i (frameAddr k) flags s)
      (VVBright.newTableState d i (frameAddr k) flags t) := by
  refine ⟨?_, fun x hx => ?_⟩
  · rw [h.rest]
    rfl
  · rw [mem_newTableState, mem_newTableState]
    rcases hx with hx | hx
    · exact clearTableMem_congr _ _ (h.bytes x hx)
    · exact clearTableMem_of_mem_frame _ _ hk hx

end

/-! ## Calls -/

/-- The clients have seen the same, and their managers are in the same state. -/
structure SameManager (c c' : Client) : Prop where
  rest : c' = { c with st := c'.st }
  state : AgreeOn (managerBytes c.st) c.st c'.st

section

variable {c c' : Client}

lemma SameManager.refl (c : Client) : SameManager c c := ⟨rfl, rfl, fun _ _ => rfl⟩

lemma bitmapBytes_subset (s : MemoryState) : bitmapBytes ⊆ managerBytes s :=
  Set.subset_union_left

/-- States with the same page directories keep the same bytes. -/
lemma managerBytes_congr {s t : MemoryState} (h : t.dirs = s.dirs) :
    managerBytes t = managerBytes s := by
  have htable : tableFrame t = tableFrame s := by
    funext slot
    rw [tableFrame, tableFrame, h]
  rw [managerBytes, managerBytes, htable]

lemma SameManager.mapPage_of_null (h : SameManager c c') (hlow : LowInv c) {d : DirPtr}
    {virt phys flags : BitVec 32} (hnull : (c.st.dirs d).tables (tableIndex virt) = NULL)
    (hunused : TakesUnused (.mapPage d virt phys flags) c) :
    AgreeOn (managerBytes ((mapPage d virt phys flags).exec c.st))
      ((mapPage d virt phys flags).exec c.st) ((mapPage d virt phys flags).exec c'.st) := by
  obtain ⟨-, k, -, hleast⟩ := hlow.least hunused hnull
  have hk := (leastFree_eq_some_iff.mp hleast).1
  obtain ⟨heval, hexec⟩ := h.state.allocFrame (bitmapBytes_subset _) hlow.ready
  have hnull' : (c'.st.dirs d).tables (tableIndex virt) = NULL := by
    rw [h.state.rest]
    exact hnull
  have htable := (allocFrame_of_least hlow.ready hleast).1
  have hagree := (hexec.newTableState d (tableIndex virt) hk flags).fillState hk
    (entryIndex_lt virt) Set.subset_union_right phys flags
  rw [exec_mapPage_of_null phys flags hnull, exec_mapPage_of_null phys flags hnull', heval, htable,
    ← entryAddr]
  refine hagree.mono ?_
  rintro x (hx | ⟨⟨d', i'⟩, hne, hx⟩)
  · exact Or.inl (Or.inl hx)
  · -- a table is an old one or the new one
    rw [tableFrame, dirs_fillState, tables_newTableState] at hne hx
    by_cases hslot : d' = d ∧ i' = tableIndex virt
    · rw [if_pos hslot, frameOf_frameAddr hk] at hx
      exact Or.inr hx
    · rw [if_neg hslot, dirs_allocFrame] at hne hx
      exact Or.inl (Or.inr ⟨(d', i'), hne, hx⟩)

lemma SameManager.mapPage_of_table (h : SameManager c c') (hlow : LowInv c) {d : DirPtr}
    {virt : BitVec 32} (phys flags : BitVec 32)
    (hne : (c.st.dirs d).tables (tableIndex virt) ≠ NULL) :
    AgreeOn (managerBytes ((mapPage d virt phys flags).exec c.st))
      ((mapPage d virt phys flags).exec c.st) ((mapPage d virt phys flags).exec c'.st) := by
  obtain ⟨hf, htable⟩ := hlow.exists_tableFrame (d, tableIndex virt)
  have htable' : (c'.st.dirs d).tables (tableIndex virt) =
      frameAddr (tableFrame c.st (d, tableIndex virt)) := by
    rw [h.state.rest]
    exact htable
  have hnull := hne
  rw [htable] at hnull
  have hzero : tableFrame c.st (d, tableIndex virt) ≠ 0 := by
    intro hzero
    rw [hzero] at hnull
    exact hnull rfl
  rw [exec_mapPage_of_table phys flags htable hnull, exec_mapPage_of_table phys flags htable' hnull,
    managerBytes_congr (dirs_fillState _ _ _ _), ← entryAddr]
  refine h.state.fillState (by rw [frameCount]; omega) (entryIndex_lt virt) ?_ phys flags
  exact fun x hx => Or.inr ⟨_, hzero, hx⟩

/-- `kmalloc` does not look at memory. -/
lemma kmalloc_withMem (size : BitVec 32) (s : MemoryState) (m : Memory) :
    (kmalloc size).eval { s with mem := m } = (kmalloc size).eval s ∧
      (kmalloc size).exec { s with mem := m } = { (kmalloc size).exec s with mem := m } := by
  by_cases hgt : s.heapPosition + heapSize size > s.heapEnd
  · have h := kmalloc_of_gt hgt
    have h' := kmalloc_of_gt (s := { s with mem := m }) hgt
    rw [h.1, h.2, h'.1, h'.2]
    exact ⟨rfl, rfl⟩
  · have h := kmalloc_of_le hgt
    have h' := kmalloc_of_le (s := { s with mem := m }) hgt
    rw [h.1, h.2, h'.1, h'.2]
    exact ⟨rfl, rfl⟩

/-- Managers in the same state do the same. -/
theorem SameManager.step {call : Call} (h : SameManager c c') (hlow : LowInv c)
    (hcall : ManagerCall call c) (hunused : TakesUnused call c) :
    SameManager (Client.step call c) (Client.step call c') := by
  obtain ⟨st', hc'⟩ : ∃ st', c' = { c with st := st' } := ⟨c'.st, h.rest⟩
  subst hc'
  have hagree : AgreeOn (managerBytes c.st) c.st st' := h.state
  have hready := hlow.ready
  cases call with
  | allocFrame =>
    obtain ⟨heval, hexec⟩ := hagree.allocFrame (bitmapBytes_subset _) hready
    have hex := (hlow.least hunused trivial).1
    have hex' : ¬ Exhausted st' := by
      rw [exhausted_iff (hagree.ready hready), hagree.markedFrames (bitmapBytes_subset _) hready,
        ← exhausted_iff hready]
      exact hex
    rw [Client.step_allocFrame hex, Client.step_allocFrame (c := { c with st := st' }) hex', heval]
    refine ⟨rfl, ?_⟩
    rw [managerBytes_congr (dirs_allocFrame c.st)]
    exact hexec
  | freeFrame p =>
    have hp := hlow.lt_of_holds hcall
    have hdirs : ((freeFrame p).exec c.st).dirs = c.st.dirs := by
      rw [(freeFrame_bitmapOnly c.st hp).rest]
    rw [Client.step, Client.step]
    refine ⟨rfl, ?_⟩
    dsimp only
    rw [managerBytes_congr hdirs]
    exact hagree.freeFrame (bitmapBytes_subset _) hready hp
  | mapPage d virt phys flags =>
    rw [Client.step, Client.step]
    refine ⟨rfl, ?_⟩
    dsimp only
    by_cases hnull : (c.st.dirs d).tables (tableIndex virt) = NULL
    · exact h.mapPage_of_null hlow hnull hunused
    · exact h.mapPage_of_table hlow phys flags hnull
  | kmalloc size =>
    have hst' := hagree.rest
    have hkmalloc := kmalloc_withMem size c.st st'.mem
    rw [← hst'] at hkmalloc
    obtain ⟨position, hexec⟩ := exists_exec_kmalloc size c.st
    rw [Client.step, Client.step]
    dsimp only
    rw [hkmalloc.1, hkmalloc.2, hexec]
    exact ⟨rfl, rfl, hagree.bytes⟩
  | kfree ptr => exact h

end

end VVBright
