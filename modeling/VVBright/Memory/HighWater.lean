import VVBright.Memory.Ownership

/-!
# How far the frames reach

`alloc_frame` knows which frames are marked and nothing else of the machine: neither the video
memory at `0xA0000` nor the firmware above it is marked by `paging_init`.  First fit makes up for
part of that.  The frames that a run takes stay below a bound `B` of at most 1 MB exactly when,
whenever a frame is asked for, fewer than `B` frames are in use: frame 0, the frames the client
holds, and the page tables.
-/

namespace VVBright

open Traced

/-- The number of frames in use: frame 0, the held frames and the page tables of all directories. -/
noncomputable def framesInUse (c : Client) : ℕ :=
  1 + c.held.length + {slot | tableFrame c.st slot ≠ 0}.ncard

/-- Whatever frame the call takes is below `B`. -/
def TakesBelow (B : ℕ) (call : Call) (c : Client) : Prop :=
  Allocates call c → frameOf (allocFrame.eval c.st) < B

/-- When the call asks for a frame, fewer than `B` frames are in use. -/
def SeesFewInUse (B : ℕ) (call : Call) (c : Client) : Prop :=
  Allocates call c → framesInUse c < B

/-- The bitmap counts the frames in use. -/
lemma FramesAccounted.card_markedFrames {c : Client} (h : FramesAccounted c) :
    (markedFrames c.st).card = framesInUse c := by
  rw [Accounts.card_marked h, List.length_map, framesInUse]

/-- The invariant of runs that take frames below `B` only. -/
structure BelowInv (B : ℕ) (c : Client) : Prop where
  low : LowInv c
  accounts : FramesAccounted c
  below : ∀ k ∈ markedFrames c.st, k < B

section

variable {c : Client} {call : Call} {B : ℕ}

/-- The frame that `alloc_frame` returns is the least free one. -/
lemma LowInv.exists_leastFree (h : LowInv c) :
    ∃ k, leastFree frameCount (markedFrames c.st) = some k ∧
      frameOf (VVBright.allocFrame.eval c.st) = k := by
  have hex : ¬ Exhausted c.st := by
    rw [exhausted_iff h.ready, leastFree_eq_none_iff]
    intro hfull
    exact h.free (hfull 256 (by norm_num [frameCount]))
  obtain ⟨k, hk⟩ := VVBright.exists_leastFree h.ready hex
  refine ⟨k, hk, ?_⟩
  rw [frameOf_allocFrame_of_least h.ready hk]

lemma TakesBelow.takesUnused (h : TakesBelow B call c) (hB : B ≤ 256) : TakesUnused call c :=
  fun halloc _ => not_inUse (lt_of_lt_of_le (h halloc) hB)

/-- A call marks at most the frame it takes. -/
lemma LowInv.mem_markedFrames_step (h : LowInv c) (hcall : ManagerCall call c)
    (hunused : TakesUnused call c) {k : ℕ} (hk : k ∈ markedFrames (Client.step call c).st) :
    k ∈ markedFrames c.st ∨ Allocates call c ∧ k = frameOf (VVBright.allocFrame.eval c.st) := by
  obtain ⟨j, hleast, hframe⟩ := h.exists_leastFree
  cases call with
  | allocFrame =>
    rw [Client.step_allocFrame (h.least hunused trivial).1] at hk
    change k ∈ markedFrames (VVBright.allocFrame.exec c.st) at hk
    rw [markedFrames_allocFrame h.ready hleast, Finset.mem_insert] at hk
    rcases hk with rfl | hk
    · exact Or.inr ⟨trivial, hframe.symm⟩
    · exact Or.inl hk
  | freeFrame p =>
    change k ∈ markedFrames ((VVBright.freeFrame p).exec c.st) at hk
    rw [markedFrames_freeFrame c.st (h.lt_of_holds hcall)] at hk
    exact Or.inl (Finset.mem_of_mem_erase hk)
  | mapPage d virt phys flags =>
    change k ∈ markedFrames ((VVBright.mapPage d virt phys flags).exec c.st) at hk
    by_cases hnull : (c.st.dirs d).tables (tableIndex virt) = NULL
    · obtain ⟨-, i, hi, hleast'⟩ := h.least hunused hnull
      obtain rfl : i = j := Option.some.inj (hleast'.symm.trans hleast)
      rw [mapPage_markedFrames_of_null rfl h.ready hnull hleast (not_overlapsBitmap hi),
        Finset.mem_insert] at hk
      rcases hk with rfl | hk
      · exact Or.inr ⟨hnull, hframe.symm⟩
      · exact Or.inl hk
    · obtain ⟨hf, htable⟩ := h.exists_tableFrame (d, tableIndex virt)
      rw [(mapPage_of_table rfl h.ready htable (by rwa [← htable]) (by rw [frameCount]; omega)
        (not_overlapsBitmap hf)).1] at hk
      exact Or.inl hk
  | kmalloc size =>
    obtain ⟨position, hexec⟩ := exists_exec_kmalloc size c.st
    rw [Client.step, hexec] at hk
    exact Or.inl hk
  | kfree ptr => exact Or.inl hk

lemma BelowInv.step (h : BelowInv B c) (hB : B ≤ 256) (hcall : ManagerCall call c)
    (hbelow : TakesBelow B call c) : BelowInv B (Client.step call c) := by
  have hunused := hbelow.takesUnused hB
  refine ⟨h.low.step hcall hunused, h.accounts.step h.low hcall hunused, fun k hk => ?_⟩
  rcases h.low.mem_markedFrames_step hcall hunused hk with hk | ⟨halloc, rfl⟩
  · exact h.below k hk
  · exact hbelow halloc

/-- While only frames below `B` are in use, the next one is below `B` exactly when there are fewer
than `B` of them. -/
lemma BelowInv.takesBelow_iff (h : BelowInv B c) : TakesBelow B call c ↔ SeesFewInUse B call c := by
  obtain ⟨k, hleast, hframe⟩ := h.low.exists_leastFree
  rw [TakesBelow, SeesFewInUse, hframe, ← h.accounts.card_markedFrames]
  refine forall_congr' fun _ => ⟨?_, ?_⟩
  · exact card_lt_of_leastFree_lt hleast h.below
  · exact leastFree_lt_of_card_lt hleast

end

/-- After `memory_init` the frames 0 and 1 are in use. -/
lemma belowInv_memoryInit {s : MemoryState}
    (hempty : ∀ d, d ≠ kernelDirectory → ∀ i, (s.dirs d).tables i = NULL) {B : ℕ} (hB : 2 ≤ B) :
    BelowInv B (Client.start (memoryInit.exec s)) := by
  have hsetup := memoryInit_setUp s
  refine ⟨lowInv_memoryInit hempty, hsetup.framesAccounted hempty, fun k hk => ?_⟩
  change k ∈ markedFrames (memoryInit.exec s) at hk
  rw [hsetup.marked, Finset.mem_range] at hk
  omega

/-- **How far the frames of a run reach.**  For a bound `B` of at least 2 and at most 256 and a
client that frees only what it holds: every frame taken by `alloc_frame` or `map_page` in a run
after `memory_init` is below `B` exactly when fewer than `B` frames are in use at every call that
asks for one.  With `B = 160` this says when the video memory at `0xA0000` is never handed out. -/
theorem takesBelow_iff_seesFewInUse {B : ℕ} (hlo : 2 ≤ B) (hB : B ≤ 256) (s : MemoryState)
    (hempty : ∀ d, d ≠ kernelDirectory → ∀ i, (s.dirs d).tables i = NULL) (calls : List Call)
    (hcalls : Along Client.step ManagerCall calls (Client.start (memoryInit.exec s))) :
    Along Client.step (TakesBelow B) calls (Client.start (memoryInit.exec s)) ↔
      Along Client.step (SeesFewInUse B) calls (Client.start (memoryInit.exec s)) := by
  have hinit := belowInv_memoryInit hempty hlo
  constructor
  · intro hrun
    exact (hcalls.and hrun).imp hinit (fun call c h hok => h.step hB hok.1 hok.2)
      fun call c h hok => h.takesBelow_iff.mp hok.2
  · intro hrun
    exact (hcalls.and hrun).imp hinit
      (fun call c h hok => h.step hB hok.1 (h.takesBelow_iff.mpr hok.2))
      fun call c h hok => h.takesBelow_iff.mpr hok.2

/-- A frame is taken, a page is mapped, the frame is given back and taken again: none of the frames
is video memory, and few are in use. -/
theorem takesBelow_iff_seesFewInUse_first_calls :
    Along Client.step (SeesFewInUse 160)
      [.allocFrame, .mapPage kernelDirectory 0x400000#32 0x5000#32 0x07#32, .freeFrame 0x2000#32,
        .allocFrame] (Client.start (memoryInit.exec blankState)) := by
  have hsetup := memoryInit_setUp blankState
  obtain ⟨s, hs⟩ : ∃ s, s = memoryInit.exec blankState := ⟨_, rfl⟩
  rw [← hs] at hsetup
  obtain ⟨c₁, c₂, c₃, hc₁, hc₂, hc₃, -, hholds, ⟨hready₁, hready₃⟩, hleast₁, hleast₃⟩ :=
    hsetup.firstCalls
  have htake : TakesBelow 160 .allocFrame (Client.start s) := fun _ => by
    change frameOf (allocFrame.eval s) < 160
    rw [frameOf_allocFrame_of_least hsetup.ready hsetup.least]
    norm_num
  have hmap : TakesBelow 160 (.mapPage kernelDirectory 0x400000#32 0x5000#32 0x07#32) c₁ :=
    fun _ => by
      rw [frameOf_allocFrame_of_least hready₁ hleast₁]
      norm_num
  have hagain : TakesBelow 160 .allocFrame c₃ := fun _ => by
    rw [frameOf_allocFrame_of_least hready₃ hleast₃]
    norm_num
  refine (takesBelow_iff_seesFewInUse (by norm_num) (by norm_num) blankState (fun _ _ _ => rfl) _
    ?_).mp ?_
  all_goals
    rw [← hs]
    simp only [Along]
    rw [← hc₁, ← hc₂, ← hc₃]
  · exact ⟨trivial, trivial, hholds, trivial, trivial⟩
  · exact ⟨htake, hmap, fun halloc => halloc.elim, hagain, trivial⟩

end VVBright
