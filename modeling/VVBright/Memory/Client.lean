import VVBright.Memory.Heap
import VVBright.Memory.Paging

/-!
# Clients of the memory manager

A run of the memory manager is a list of calls by a client.  `Client` pairs the state of the
memory manager with what the client knows: the frames it holds, how often it allocated and freed,
and the heap blocks it was given.  What a client may do differs from result to result, and is
stated there as a predicate on calls for `Along`.
-/

namespace VVBright

open Traced

/-- The frame an address lies in. -/
def frameOf (p : BitVec 32) : ℕ := p.toNat / 4096

/-- `alloc_frame` has no frame left: `first_free_frame` reports `(uint32_t)-1`. -/
def Exhausted (s : MemoryState) : Prop := firstFreeFrame.eval s = 0xFFFFFFFF#32

instance (s : MemoryState) : Decidable (Exhausted s) :=
  inferInstanceAs (Decidable (_ = _))

/-- The calls of a client. -/
inductive Call where
  | allocFrame
  | freeFrame (p : BitVec 32)
  | mapPage (d : DirPtr) (virt phys flags : BitVec 32)
  | kmalloc (size : BitVec 32)
  | kfree (ptr : BitVec 32)

/-- The memory manager and what its client knows. -/
structure Client where
  /-- The state of the memory manager. -/
  st : MemoryState
  /-- The addresses of the frames the client holds. -/
  held : List (BitVec 32)
  /-- The number of allocations that succeeded. -/
  allocs : ℕ
  /-- The number of frames given back. -/
  frees : ℕ
  /-- The blocks `kmalloc` returned, with the size asked for. -/
  blocks : List (BitVec 32 × BitVec 32)

/-- A client that has not called anything yet. -/
def Client.start (s : MemoryState) : Client := ⟨s, [], 0, 0, []⟩

/-- One call.  The address 0 is a frame like any other, so whether an allocation succeeded is not
read off its result but off `Exhausted`. -/
def Client.step : Call → Client → Client
  | .allocFrame, c =>
    if Exhausted c.st then
      { c with st := VVBright.allocFrame.exec c.st }
    else
      { c with
        st := VVBright.allocFrame.exec c.st
        held := VVBright.allocFrame.eval c.st :: c.held
        allocs := c.allocs + 1 }
  | .freeFrame p, c =>
    { c with
      st := (VVBright.freeFrame p).exec c.st
      held := c.held.filter fun q => frameOf q ≠ frameOf p
      frees := c.frees + 1 }
  | .mapPage d virt phys flags, c => { c with st := (VVBright.mapPage d virt phys flags).exec c.st }
  | .kmalloc size, c =>
    { c with
      st := (VVBright.kmalloc size).exec c.st
      blocks :=
        if (VVBright.kmalloc size).eval c.st = NULL then c.blocks
        else ((VVBright.kmalloc size).eval c.st, size) :: c.blocks }
  | .kfree ptr, c => { c with st := (VVBright.kfree ptr).exec c.st }

/-- An allocation without a free frame. -/
lemma Client.step_allocFrame_of_exhausted {c : Client} (h : Exhausted c.st) :
    Client.step .allocFrame c = { c with st := VVBright.allocFrame.exec c.st } := if_pos h

/-- An allocation that succeeds. -/
lemma Client.step_allocFrame {c : Client} (h : ¬ Exhausted c.st) :
    Client.step .allocFrame c =
      { c with
        st := VVBright.allocFrame.exec c.st
        held := VVBright.allocFrame.eval c.st :: c.held
        allocs := c.allocs + 1 } := if_neg h

/-- The address lies in a frame the client holds. -/
def Client.Holds (c : Client) (p : BitVec 32) : Prop := ∃ q ∈ c.held, frameOf q = frameOf p

lemma frameOf_frameAddr {k : ℕ} (hk : k < frameCount) : frameOf (frameAddr k) = k := by
  rw [frameOf, toNat_frameAddr hk, Nat.mul_div_cancel_left k (by norm_num)]

/-- The frame `alloc_frame` returns is the least free one. -/
lemma frameOf_allocFrame_of_least {s : MemoryState} (hs : BitmapReady s) {k : ℕ}
    (hleast : leastFree frameCount (markedFrames s) = some k) :
    frameOf (allocFrame.eval s) = k := by
  rw [(allocFrame_of_least hs hleast).1, frameOf_frameAddr (leastFree_eq_some_iff.mp hleast).1]

/-- The allocator is exhausted exactly when every frame is marked. -/
lemma exhausted_iff {s : MemoryState} (hs : BitmapReady s) :
    Exhausted s ↔ leastFree frameCount (markedFrames s) = none := by
  rw [Exhausted, eval_firstFreeFrame hs]
  cases h : leastFree frameCount (markedFrames s) with
  | none => simp
  | some k =>
    have hk : k < 65536 := (leastFree_eq_some_iff.mp h).1
    have hne : BitVec.ofNat 32 k ≠ 0xFFFFFFFF#32 := by bv_omega
    simp [hne]

/-- An allocator that is not exhausted has a least free frame. -/
lemma exists_leastFree {s : MemoryState} (hs : BitmapReady s) (h : ¬ Exhausted s) :
    ∃ k, leastFree frameCount (markedFrames s) = some k := by
  rw [exhausted_iff hs] at h
  exact Option.ne_none_iff_exists'.mp h

/-- An allocation after the first `m` frames have been taken. -/
lemma step_allocFrame_range {c : Client} {m : ℕ} (h : BitmapReady c.st)
    (hmarked : markedFrames c.st = Finset.range m) (hlt : m < frameCount) :
    ¬ Exhausted c.st ∧ allocFrame.eval c.st = frameAddr m ∧
      markedFrames (Client.step .allocFrame c).st = Finset.range (m + 1) ∧
      BitmapOnly c.st (Client.step .allocFrame c).st := by
  have hleast : leastFree frameCount (markedFrames c.st) = some m := by
    rw [hmarked]
    exact leastFree_range hlt
  have hex : ¬ Exhausted c.st := by
    rw [exhausted_iff h, hleast]
    exact Option.some_ne_none m
  have hst : (Client.step .allocFrame c).st = allocFrame.exec c.st := by
    rw [Client.step_allocFrame hex]
  refine ⟨hex, (allocFrame_of_least h hleast).1, ?_, ?_⟩
  · rw [hst, markedFrames_allocFrame h hleast, hmarked, Finset.range_add_one]
  · rw [hst]
    exact allocFrame_bitmapOnly h

/-- A state with an empty bitmap, in memory that is zero everywhere. -/
def emptyBitmap : MemoryState := { blankState with frames := 0x100000#32, nFrames := 65536#32 }

lemma emptyBitmap_ready : BitmapReady emptyBitmap := ⟨rfl, rfl⟩

lemma markedFrames_emptyBitmap : markedFrames emptyBitmap = Finset.range 0 := by
  ext k
  have hword : frameWord emptyBitmap (k / 32) = 0#32 := by
    simp [frameWord, load32, emptyBitmap, blankState]
  simp [mem_markedFrames, frameBit, hword]

end VVBright
