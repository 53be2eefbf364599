import VVBright.Memory.Client

/-!
# Runs of the frame allocator

A client that only calls `alloc_frame` and `free_frame`, and frees only frames it holds, sees a
first-fit pool of frames.  The abstraction `Client.pool` reads the bitmap as a set; one call of the
code is one request to the pool (`pool_step`), so the accounting invariant of the pool carries over
to every run of the code.
-/

namespace VVBright

open Traced

/-- What the client of the frame allocator may call: `free_frame` only for an address in a frame
it holds. -/
def FrameCall : Call → Client → Prop
  | .allocFrame, _ => True
  | .freeFrame p, c => c.Holds p
  | _, _ => False

/-- The pool a client of the frame allocator stands for. -/
def Client.pool (c : Client) : Pool :=
  ⟨markedFrames c.st, c.held.map frameOf, c.allocs, c.frees⟩

/-- What is known of a client of the frame allocator that started with `n₀` marked frames. -/
structure FrameInv (n₀ : ℕ) (c : Client) : Prop where
  /-- The bitmap is where `paging_init` put it. -/
  ready : BitmapReady c.st
  /-- The pool is accounted for. -/
  pool : Pool.Inv frameCount n₀ c.pool
  /-- The held addresses are addresses of frames. -/
  aligned : ∀ q ∈ c.held, q = frameAddr (frameOf q)

section

variable {n₀ : ℕ} {c : Client}

/-- An address in a held frame is an address of managed memory. -/
lemma FrameInv.toNat_lt (h : FrameInv n₀ c) {p : BitVec 32} (hp : c.Holds p) :
    p.toNat < 2 ^ 28 := by
  obtain ⟨q, hq, hqp⟩ := hp
  have hlt : frameOf q < 65536 := h.pool.held_lt _ (List.mem_map_of_mem hq)
  rw [hqp, frameOf] at hlt
  omega

/-- Forgetting the frame of `p` is erasing it from the held frames. -/
lemma map_frameOf_filter (held : List (BitVec 32)) (hnd : (held.map frameOf).Nodup) (k : ℕ) :
    (held.filter fun q => frameOf q ≠ k).map frameOf = (held.map frameOf).erase k := by
  rw [hnd.erase_eq_filter, List.filter_map]
  congr 1
  apply List.filter_congr
  intro q _
  simp [bne, beq_eq_decide]

/-- One call of the code is one request to the pool. -/
theorem pool_allocFrame (h : FrameInv n₀ c) :
    (Client.step .allocFrame c).pool = Pool.step frameCount .alloc c.pool := by
  by_cases hex : Exhausted c.st
  · have hfull := (exhausted_iff h.ready).mp hex
    have hexec := (allocFrame_of_full h.ready hfull).2
    rw [Client.step_allocFrame_of_exhausted hex, Pool.step_alloc_of_none (p := c.pool) hfull,
      Client.pool, Client.pool, hexec]
  · obtain ⟨k, hk⟩ := exists_leastFree h.ready hex
    have hlt : k < frameCount := (leastFree_eq_some_iff.mp hk).1
    have heval := (allocFrame_of_least h.ready hk).1
    have hmarked := markedFrames_allocFrame h.ready hk
    rw [Client.step_allocFrame hex, Pool.step_alloc_of_some (p := c.pool) hk, Client.pool, heval,
      hmarked, List.map_cons, frameOf_frameAddr hlt]
    rfl

/-- Giving a frame back is a release of the pool. -/
theorem pool_freeFrame (h : FrameInv n₀ c) {p : BitVec 32} (hp : c.Holds p) :
    (Client.step (.freeFrame p) c).pool = Pool.step frameCount (.free (frameOf p)) c.pool := by
  have hmarked := markedFrames_freeFrame c.st (h.toNat_lt hp)
  have hheld := map_frameOf_filter c.held h.pool.nodup (frameOf p)
  simp only [Client.step, Pool.step, Client.pool, hmarked, hheld]
  rfl

/-- Every call the client may make preserves what is known of it. -/
theorem FrameInv.step {call : Call} (h : FrameInv n₀ c) (hcall : FrameCall call c) :
    FrameInv n₀ (Client.step call c) := by
  cases call with
  | allocFrame =>
    refine ⟨?_, ?_, ?_⟩
    · have hst : (Client.step .allocFrame c).st = allocFrame.exec c.st := by
        rw [Client.step]
        split <;> rfl
      rw [hst]
      exact (allocFrame_bitmapOnly h.ready).ready h.ready
    · rw [pool_allocFrame h]
      exact h.pool.step trivial
    · intro q hq
      by_cases hex : Exhausted c.st
      · rw [Client.step_allocFrame_of_exhausted hex] at hq
        exact h.aligned q hq
      · obtain ⟨k, hk⟩ := exists_leastFree h.ready hex
        have hlt : k < frameCount := (leastFree_eq_some_iff.mp hk).1
        rw [Client.step_allocFrame hex] at hq
        rcases List.mem_cons.mp hq with rfl | hq
        · rw [(allocFrame_of_least h.ready hk).1, frameOf_frameAddr hlt]
        · exact h.aligned q hq
  | freeFrame p =>
    refine ⟨?_, ?_, ?_⟩
    · exact (freeFrame_bitmapOnly c.st (h.toNat_lt hcall)).ready h.ready
    · rw [pool_freeFrame h hcall]
      obtain ⟨q, hq, hqp⟩ := hcall
      exact h.pool.step (List.mem_map.mpr ⟨q, hq, hqp⟩)
    · intro q hq
      exact h.aligned q (List.mem_of_mem_filter hq)
  | mapPage _ _ _ _ => exact hcall.elim
  | kmalloc _ => exact hcall.elim
  | kfree _ => exact hcall.elim

end

/-- **The frame bitmap refines a set of frames.**  From any contents of the bitmap, after any run
of `alloc_frame` calls and of `free_frame` calls for addresses in held frames:

* the next `alloc_frame` takes the least unmarked frame, or returns `NULL` and changes nothing when
  every frame is marked; the next `free_frame` for a held frame unmarks that frame; neither changes
  a word off the bitmap or accesses one;
* the held frames are aligned, below 256 MB, pairwise different and marked, and the number of
  marked frames is the initial one plus the allocations minus the frees. -/
theorem frameBitmap_refines_set (s : MemoryState) (hs : BitmapReady s) (calls : List Call)
    (hrun : Along Client.step FrameCall calls (Client.start s)) :
    let c := runActions Client.step calls (Client.start s)
    (∀ k, k < frameCount → k ∉ markedFrames c.st → (∀ j < k, j ∈ markedFrames c.st) →
      (allocFrame.eval c.st).toNat = 4096 * k ∧
        markedFrames (allocFrame.exec c.st) = insert k (markedFrames c.st)) ∧
    ((∀ k < frameCount, k ∈ markedFrames c.st) →
      allocFrame.eval c.st = NULL ∧ allocFrame.exec c.st = c.st) ∧
    (∀ p, c.Holds p →
      markedFrames ((freeFrame p).exec c.st) = (markedFrames c.st).erase (p.toNat / 4096)) ∧
    BitmapOnly c.st (allocFrame.exec c.st) ∧ AccessesIn InBitmap allocFrame c.st ∧
    (∀ p, c.Holds p → BitmapOnly c.st ((freeFrame p).exec c.st) ∧
      AccessesIn InBitmap (freeFrame p) c.st) ∧
    (∀ q ∈ c.held, q.toNat % 4096 = 0 ∧ q.toNat < 256 * 2 ^ 20 ∧
      q.toNat / 4096 ∈ markedFrames c.st) ∧
    c.held.Nodup ∧
    (markedFrames c.st).card + c.frees = (markedFrames s).card + c.allocs := by
  intro c
  have hstart : FrameInv (markedFrames s).card (Client.start s) :=
    ⟨hs, Pool.Inv.init frameCount (markedFrames s), by simp [Client.start]⟩
  have hc : FrameInv (markedFrames s).card c :=
    hrun.invariant hstart fun call t ht hok => ht.step hok
  have hacc : AccessesIn InBitmap allocFrame c.st :=
    allocFrame_accessesIn hc.ready fun i hi => ⟨i, hi, rfl⟩
  refine ⟨?_, ?_, ?_, allocFrame_bitmapOnly hc.ready, hacc, ?_, ?_, ?_, hc.pool.card⟩
  · intro k hk hfree hbelow
    have hleast := leastFree_eq_some_iff.mpr ⟨hk, hfree, hbelow⟩
    refine ⟨?_, markedFrames_allocFrame hc.ready hleast⟩
    rw [(allocFrame_of_least hc.ready hleast).1, toNat_frameAddr hk]
  · intro hall
    exact allocFrame_of_full hc.ready (leastFree_eq_none_iff.mpr hall)
  · intro p hp
    exact markedFrames_freeFrame c.st (hc.toNat_lt hp)
  · intro p hp
    exact ⟨freeFrame_bitmapOnly c.st (hc.toNat_lt hp), freeFrame_accessesIn c.st (hc.toNat_lt hp)⟩
  · intro q hq
    have hlt : frameOf q < frameCount := hc.pool.held_lt _ (List.mem_map_of_mem hq)
    have haddr := toNat_frameAddr hlt
    rw [← hc.aligned q hq] at haddr
    have hlt' : frameOf q < 65536 := hlt
    refine ⟨by omega, by omega, hc.pool.held_marked _ (List.mem_map_of_mem hq)⟩
  · exact List.Nodup.of_map frameOf hc.pool.nodup

/-- From an empty bitmap: take frame 0, give it back through an address in the middle of it. -/
theorem frameBitmap_refines_set_take_and_return :
    let c := runActions Client.step [.allocFrame, .freeFrame 0x10#32] (Client.start emptyBitmap)
    c.held.Nodup ∧
      (markedFrames c.st).card + c.frees = (markedFrames emptyBitmap).card + c.allocs := by
  obtain ⟨hex, heval, -, -⟩ := step_allocFrame_range (c := Client.start emptyBitmap)
    emptyBitmap_ready markedFrames_emptyBitmap (by norm_num [frameCount])
  have hheld : (Client.step .allocFrame (Client.start emptyBitmap)).Holds 0x10#32 := by
    rw [Client.step_allocFrame hex, Client.Holds, heval]
    exact ⟨frameAddr 0, List.mem_cons_self, rfl⟩
  obtain ⟨-, -, -, -, -, -, -, hnodup, hcard⟩ :=
    frameBitmap_refines_set emptyBitmap emptyBitmap_ready [.allocFrame, .freeFrame 0x10#32]
      ⟨trivial, hheld, trivial⟩
  exact ⟨hnodup, hcard⟩

end VVBright
