import VVBright.Memory.AddressSpace
import VVBright.Memory.Reachable

/-!
# The address spaces after `memory_init`

When `memory_init` returns, paging is enabled, the kernel directory is loaded and maps the pages 1
to 1023 to themselves.  As a list of requests this is the loop of `paging_init` without its first
round, whose page table was put at the null pointer (`bootRequests`); the calls that follow simply
continue the list.

`Represents` is what such runs keep: the directories show what was asked for, and the processor
finds the one that is loaded.  The second half needs the directories to be page-aligned, since the
processor ignores the low twelve bits of CR3.
-/

namespace VVBright

open Traced

/-- The requests of `paging_init` that are in force when it returns. -/
def bootRequests : List Call :=
  (List.range 1023).map fun i =>
    .mapPage kernelDirectory (frameAddr (i + 1)) (frameAddr (i + 1)) 0x03#32

/-- The directories of a kernel that starts: the kernel directory and others that are empty, all of
them page-aligned. -/
structure BootDirectories (D : Set DirPtr) (s : MemoryState) : Prop where
  kernel : kernelDirectory ∈ D
  aligned : ∀ d ∈ D, DirAligned s d
  empty : ∀ d ∈ D, d ≠ kernelDirectory → ∀ i,
    (s.dirs d).tables i = NULL ∧ ((s.dirs d).tablesPhysical i).getLsbD 0 = false

/-- The page of `v` as the processor finds it when it walks the loaded directory. -/
def MemoryState.view (s : MemoryState) (v : BitVec 32) : Option PageInfo :=
  s.loadedDirectory.bind fun dir => mmuView s.mem dir v

/-- The directories in `D` represent the calls, and `d` is the one that is loaded. -/
structure Represents (D : Set DirPtr) (calls : List Call) (d : DirPtr) (c : Client) : Prop where
  inv : TransInv D c
  slots : ∀ d' ∈ D, ∀ v, SlotMatches calls c.st d' v
  on : PagingOn c.st
  loaded : Loaded c.st d
  mem : d ∈ D
  aligned : ∀ d' ∈ D, DirAligned c.st d'

section

variable {D : Set DirPtr} {calls : List Call} {d : DirPtr} {c : Client}

/-- The processor finds what was asked for. -/
lemma Represents.view_eq (h : Represents D calls d c) (v : BitVec 32) :
    c.st.view v = requestedView d v calls := by
  rw [MemoryState.view, h.loaded.of_aligned (h.aligned d h.mem), Option.bind_some]
  exact (h.slots d h.mem v).mmuView_eq h.inv h.mem

/-- A call continues the list. -/
lemma Represents.call (h : Represents D calls d c) {call : Call} (hcall : TransCall D call c) :
    Represents D (calls ++ [call]) d (Client.step call c) := by
  obtain ⟨m, dirs, position, hst⟩ := Client.step_rest h.inv.ready call
  refine ⟨h.inv.step hcall, fun d' hd' v => (h.slots d' hd' v).step h.inv hd' hcall, ?_, ?_, h.mem,
    ?_⟩
  · rw [hst]
    exact h.on
  · rw [hst]
    exact h.loaded
  · rw [hst]
    exact h.aligned

/-- `switch_directory` loads another directory and leaves them all as they are. -/
lemma Represents.switchDirectory (h : Represents D calls d c) {d' : DirPtr} (hd' : d' ∈ D) :
    Represents D calls d' { c with st := (VVBright.switchDirectory d').exec c.st } := by
  obtain ⟨⟨hready, hcoh, hmarked, hzero, htable⟩, hslots, hon, -, -, haligned⟩ := h
  obtain ⟨hslot, hframes, hdistinct, hcmarked, hoff, hczero⟩ := hcoh
  rw [exec_switchDirectory]
  refine ⟨⟨⟨hready.1, hready.2⟩, ⟨hslot, hframes, hdistinct, hcmarked, hoff, hczero⟩, hmarked,
    hzero, htable⟩, fun d'' hd'' v => ?_, hon, rfl, hd', haligned⟩
  obtain ⟨hempty, htables, hword, hentry⟩ := hslots d'' hd'' v
  exact ⟨hempty, htables, hword, hentry⟩

end

/-! ## The requests of `paging_init` -/

section

variable {s t : MemoryState} {v : BitVec 32} {info : PageInfo}

lemma mem_bootRequests {call : Call} : call ∈ bootRequests ↔
    ∃ e, 1 ≤ e ∧ e < 1024 ∧
      call = .mapPage kernelDirectory (frameAddr e) (frameAddr e) 0x03#32 := by
  rw [bootRequests, List.mem_map]
  constructor
  · rintro ⟨i, hi, rfl⟩
    rw [List.mem_range] at hi
    exact ⟨i + 1, by omega, by omega, rfl⟩
  · rintro ⟨e, hlo, hhi, rfl⟩
    refine ⟨e - 1, List.mem_range.mpr (by omega), ?_⟩
    rw [Nat.sub_add_cancel hlo]

/-- A request in the 4 MB of an address: it is one in the first 4 MB, for a writable kernel page. -/
lemma firstInSlot_bootRequests {d : DirPtr} (h : firstInSlot d v bootRequests = some info) :
    d = kernelDirectory ∧ tableIndex v = 0 ∧ info.writable = true ∧ info.user = false := by
  obtain ⟨call, hmem, hcall⟩ := List.exists_of_findSome?_eq_some h
  obtain ⟨e, -, hhi, rfl⟩ := mem_bootRequests.mp hmem
  rw [slotRequest, Option.ite_none_right_eq_some] at hcall
  obtain ⟨⟨hd, hslot⟩, ⟨⟩⟩ := hcall
  rw [tableIndex_frameAddr hhi] at hslot
  exact ⟨hd.symm, hslot.symm, rfl, rfl⟩

/-- Above the first 4 MB the requests of `paging_init` do not matter. -/
lemma requestedView_bootRequests (hv : 0x400000 ≤ v.toNat) (d : DirPtr) (calls : List Call) :
    requestedView d v (bootRequests ++ calls) = requestedView d v calls := by
  have hnone : firstInSlot d v bootRequests = none := by
    by_contra hsome
    obtain ⟨info, hinfo⟩ := Option.ne_none_iff_exists'.mp hsome
    exact hv.not_gt (tableIndex_eq_zero_iff.mp (firstInSlot_bootRequests hinfo).2.1)
  have hfirst : firstInSlot d v (bootRequests ++ calls) = firstInSlot d v calls := by
    rw [firstInSlot, List.findSome?_append, ← firstInSlot, hnone, Option.none_or, firstInSlot]
  have hlast : lastOfPage d v (bootRequests ++ calls) = lastOfPage d v calls := by
    rw [lastOfPage, List.reverse_append, List.findSome?_append, ← lastOfPage, ← lastOfPage,
      lastOfPage_eq_none hnone, Option.or_none]
  rw [requestedView, requestedView, hfirst, hlast]

/-- The first 4 MB have a request. -/
lemma firstInSlot_bootRequests_ne_none (hv : tableIndex v = 0) :
    firstInSlot kernelDirectory v bootRequests ≠ none := by
  intro hnone
  have hmem := mem_bootRequests.mpr ⟨1, le_rfl, by norm_num, rfl⟩
  have hcall := List.findSome?_eq_none_iff.mp hnone _ hmem
  rw [slotRequest, if_pos ⟨rfl, by rw [tableIndex_frameAddr (by norm_num), hv]⟩] at hcall
  exact Option.some_ne_none _ hcall

/-- The request for a page of the first 4 MB, but for page 0, is one for itself. -/
lemma lastOfPage_bootRequests (hv : v.toNat < 0x400000) :
    lastOfPage kernelDirectory v bootRequests =
      if entryIndex v = 0 then none
      else some (.ofRequest (frameAddr (entryIndex v)) 0x03#32) := by
  have hindex := entryIndex_of_lt hv
  have hpage : ∀ e < 1024, (frameAddr e).toNat / 4096 = v.toNat / 4096 ↔ e = entryIndex v := by
    intro e he
    rw [toNat_frameAddr (by rw [frameCount]; omega), hindex]
    omega
  cases hlast : lastOfPage kernelDirectory v bootRequests with
  | none =>
    split
    · rfl
    · rename_i hne
      have hmem := mem_bootRequests.mpr ⟨entryIndex v, by omega, by omega, rfl⟩
      have hcall := List.findSome?_eq_none_iff.mp hlast _ (List.mem_reverse.mpr hmem)
      rw [pageRequest, if_pos ⟨rfl, (hpage _ (by omega)).mpr rfl⟩] at hcall
      exact absurd hcall (Option.some_ne_none _)
  | some info =>
    obtain ⟨call, hmem, hcall⟩ := List.exists_of_findSome?_eq_some hlast
    obtain ⟨e, hlo, hhi, rfl⟩ := mem_bootRequests.mp (List.mem_reverse.mp hmem)
    rw [pageRequest, Option.ite_none_right_eq_some] at hcall
    obtain ⟨⟨-, hsame⟩, ⟨⟩⟩ := hcall
    have he := (hpage e hhi).mp hsame
    rw [if_neg (by omega), ← he]

/-- What `paging_init` has set up is what it asked for. -/
lemma PagingSetUp.slotMatches (h : PagingSetUp 1024 s t) (v : BitVec 32) :
    SlotMatches bootRequests t kernelDirectory v := by
  have hone : 1 < frameCount := by norm_num [frameCount]
  refine ⟨fun hnone => ?_, fun first hfirst => ?_, fun first hfirst => ?_, fun first hfirst => ?_⟩
  · exact h.tables_eq _ fun hv => firstInSlot_bootRequests_ne_none hv hnone
  all_goals obtain ⟨-, hv, hwritable, huser⟩ := firstInSlot_bootRequests hfirst
  · rw [hv, h.table]
    exact frameAddr_ne_null hone (by norm_num)
  · rw [hv, h.word, hwritable, huser]
    exact ⟨rfl, rfl⟩
  · rw [lastOfPage_bootRequests (tableIndex_eq_zero_iff.mp hv), slotEntry, hv, h.table,
      frameOf_frameAddr hone]
    split
    · rename_i hzero
      rw [hzero, h.unmapped 0 (by norm_num) (Or.inl rfl), decode_clearedEntry]
    · rename_i hne
      rw [h.mapped _ (by omega) (entryIndex_lt v), decode_filledEntry]

/-- The directories after `paging_init` have one table, in frame 1. -/
lemma PagingSetUp.coherent (h : PagingSetUp 1024 s t) {D : Set DirPtr}
    (hboot : BootDirectories D s) : Coherent D t := by
  have hone : 1 < frameCount := by norm_num [frameCount]
  have hempty : ∀ d ∈ D, ∀ i, (d, i) ≠ (kernelDirectory, 0) → (t.dirs d).tables i = NULL ∧
      ((t.dirs d).tablesPhysical i).getLsbD 0 = false := by
    intro d hd i hslot
    by_cases hk : d = kernelDirectory
    · subst hk
      have hi : i ≠ 0 := fun h0 => hslot (by rw [h0])
      exact ⟨h.tables_eq i hi, by rw [h.words_eq i hi]; rfl⟩
    · rw [h.others d hk]
      exact hboot.empty d hd hk i
  have hne : ∀ d ∈ D, ∀ i, (t.dirs d).tables i ≠ NULL → (d, i) = (kernelDirectory, 0) := by
    intro d hd i hi
    by_contra hslot
    exact hi (hempty d hd i hslot).1
  refine ⟨fun d hd i => ?_, fun d hd i => ?_, fun d hd i d' hd' i' hi hi' _ => ?_,
    fun d hd i hi => ?_, fun d hd i hi => ?_, by rw [h.marked]; decide⟩
  · by_cases hslot : (d, i) = (kernelDirectory, 0)
    · obtain ⟨rfl, rfl⟩ := Prod.mk.inj hslot
      rw [h.table, h.word]
      exact Or.inr ⟨frameAddr_ne_null hone (by norm_num), by decide, by decide⟩
    · exact Or.inl (hempty d hd i hslot)
  · by_cases hslot : (d, i) = (kernelDirectory, 0)
    · obtain ⟨rfl, rfl⟩ := Prod.mk.inj hslot
      rw [h.table]
      rfl
    · rw [(hempty d hd i hslot).1]
      rfl
  · exact Prod.mk.inj ((hne d hd i hi).trans (hne d' hd' i' hi').symm)
  · obtain ⟨rfl, rfl⟩ := Prod.mk.inj (hne d hd i hi)
    rw [h.table, frameOf_frameAddr hone, h.marked]
    decide
  · obtain ⟨rfl, rfl⟩ := Prod.mk.inj (hne d hd i hi)
    rw [h.table, frameOf_frameAddr hone]
    exact not_overlapsBitmap (by norm_num)

end

/-- After `memory_init` the directories represent its requests, and the kernel directory is
loaded. -/
theorem represents_memoryInit {D : Set DirPtr} {s : MemoryState} (hboot : BootDirectories D s) :
    Represents D bootRequests kernelDirectory (Client.start (memoryInit.exec s)) := by
  have hsetup := memoryInit_setUp s
  obtain ⟨hloaded, hon⟩ := memoryInit_loaded s
  generalize memoryInit.exec s = t at hsetup hloaded hon ⊢
  refine ⟨⟨hsetup.ready, hsetup.coherent hboot, by simp [Client.start], by simp [Client.start],
    by simp [Client.start]⟩, fun d hd v => ?_, hon, hloaded, hboot.kernel, fun d hd => ?_⟩
  · by_cases hk : d = kernelDirectory
    · subst hk
      exact hsetup.slotMatches v
    · have hnone : firstInSlot d v bootRequests = none := by
        by_contra hsome
        obtain ⟨info, hinfo⟩ := Option.ne_none_iff_exists'.mp hsome
        exact hk (firstInSlot_bootRequests hinfo).1
      have hnull : (t.dirs d).tables (tableIndex v) = NULL := by
        rw [hsetup.others d hk]
        exact (hboot.empty d hd hk _).1
      refine ⟨fun _ => hnull, ?_, ?_, ?_⟩ <;> rw [hnone] <;>
        exact fun _ hsome => absurd hsome.symm (Option.some_ne_none _)
  · change DirAligned t d
    rw [DirAligned, hsetup.dirAddr]
    exact hboot.aligned d hd

/-! ## Calls whose pointers work -/

/-- What else a call has to keep to now that paging is enabled: it maps no page of the first 4 MB of
the directory that is loaded, and takes a frame for a page table from the first 4 MB, off the
directories in `D`. -/
def KeepsPointers (D : Set DirPtr) : Call → Client → Prop
  | .mapPage d virt _ _, c => (Loaded c.st d → 0x400000 ≤ virt.toNat) ∧
      ((c.st.dirs d).tables (tableIndex virt) = NULL →
        frameOf (allocFrame.eval c.st) < 1024 ∧
          ∀ d' ∈ D, ¬ FrameOverlaps (frameOf (allocFrame.eval c.st))
            (c.st.dirAddr d').val.toNat ((c.st.dirAddr d').val.toNat + 10240))
  | _, _ => True

/-- The calls of `TransCall` that do not fault and keep the pointers of later calls. -/
def RunningCall (D : Set DirPtr) (call : Call) (c : Client) : Prop :=
  TransCall D call c ∧ call.AccessesIn Reachable c.st ∧ KeepsPointers D call c

/-- A call on the kernel directory whose page table, old or new, is in one of the frames 2 to
255. -/
lemma IdentityMapped.runningCall {c : Client} (h : IdentityMapped c.st) (hs : BitmapReady c.st)
    (hlinked : 0x100000 ≤ (c.st.dirAddr kernelDirectory).val.toNat) (virt phys flags : BitVec 32)
    (hvirt : 0x400000 ≤ virt.toNat) (hflags : flags.toNat < 0x80) {f : ℕ} (hlo : 2 ≤ f)
    (hhi : f < 256)
    (htable : (c.st.dirs kernelDirectory).tables (tableIndex virt) = frameAddr f ∨
      (c.st.dirs kernelDirectory).tables (tableIndex virt) = NULL ∧
        leastFree frameCount (markedFrames c.st) = some f) :
    RunningCall {kernelDirectory} (.mapPage kernelDirectory virt phys flags) c := by
  have hslot : tableIndex virt ≠ 0 := fun h0 => hvirt.not_gt (tableIndex_eq_zero_iff.mp h0)
  have hfc : f < frameCount := by
    rw [frameCount]
    omega
  have hnew : (c.st.dirs kernelDirectory).tables (tableIndex virt) = NULL →
      ¬ Exhausted c.st ∧ frameOf (allocFrame.eval c.st) = f := by
    intro hnull
    obtain ⟨-, hleast⟩ := htable.resolve_left fun heq =>
      frameAddr_ne_null hfc (by omega) (heq.symm.trans hnull)
    rw [exhausted_iff hs, hleast, frameOf_allocFrame_of_least hs hleast]
    exact ⟨Option.some_ne_none f, rfl⟩
  refine ⟨⟨rfl, hflags, fun hnull => ⟨(hnew hnull).1, ?_⟩⟩,
    (h.mapPage hs (fun _ => hslot) phys flags hlo (by omega) htable).1, fun _ => hvirt,
    fun hnull => ?_⟩
  · rw [(hnew hnull).2]
    exact not_overlapsBitmap hhi
  · rw [(hnew hnull).2]
    refine ⟨by omega, ?_⟩
    rintro d rfl ⟨x, rfl, hx, -⟩
    omega

end VVBright
