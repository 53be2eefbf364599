import VVBright.Foundation.Bump
import VVBright.Memory.HeapRuns

/-!
# The heap as an exact bump allocator

For requests that are no larger than the heap, the 32-bit arithmetic of `kmalloc` never wraps
around, and `kmalloc` is the first-come bump allocator over the natural numbers: the requests,
rounded up, are granted exactly as long as they fit (`kmalloc_agrees_with_bump`).
-/

namespace VVBright

open Traced

/-- `HEAP_MEMORY_END - HEAP_MEMORY_START`. -/
def heapCapacity : ℕ := heapMemoryEnd.toNat - heapMemoryStart.toNat

/-- A request as the exact allocator sees it: the size rounded up to a multiple of eight. -/
def exactSize (size : BitVec 32) : ℕ := roundUp8 size.toNat

/-- The client after `heap_init` and a list of `kmalloc` calls. -/
def heapRun (s : MemoryState) (sizes : List (BitVec 32)) : Client :=
  runActions heapStep (sizes.map HeapOp.kmalloc) (heapClient s)

/-- The rounded sizes of the successful requests, added up. -/
def grantedTotal (c : Client) : ℕ := (c.blocks.map fun b => exactSize b.2).sum

/-- The request succeeds. -/
def HeapOp.Succeeds : HeapOp → Client → Prop
  | kmalloc size, c => (VVBright.kmalloc size).eval c.st ≠ NULL
  | kfree _, _ => True

/-- The heap stands for an exact allocator with the amount `used` in use. -/
structure Exact (used : ℕ) (c : Client) : Prop where
  inv : HeapInv c
  position : c.st.heapPosition.toNat = 0x200000 + used
  total : grantedTotal c = used

lemma exact_init (s : MemoryState) : Exact 0 (heapClient s) := ⟨heapInv_init s, rfl, rfl⟩

section

variable {used : ℕ} {c : Client} {size : BitVec 32}

/-- For a request no larger than the heap, the sum and the comparison of `kmalloc` are exact. -/
lemma Exact.gt_iff (h : Exact used c) (hsize : size.toNat ≤ heapCapacity) :
    NoWrap (.kmalloc size) c ∧
      (c.st.heapPosition + heapSize size).toNat = 0x200000 + (used + exactSize size) ∧
      (c.st.heapPosition + heapSize size > c.st.heapEnd ↔
        heapCapacity < used + exactSize size) := by
  have hcap : heapCapacity = 0x200000 := rfl
  have hpos := h.position
  have hend := h.inv.le_end
  have hround : exactSize size ≤ 0x200000 := by
    rw [exactSize, roundUp8]
    omega
  have hheap : (heapSize size).toNat = exactSize size :=
    toNat_heapSize_of_le (by rw [← exactSize]; omega)
  have hsum : (c.st.heapPosition + heapSize size).toNat = 0x200000 + (used + exactSize size) := by
    rw [BitVec.toNat_add, hheap, hpos, Nat.mod_eq_of_lt (by omega), Nat.add_assoc]
  refine ⟨?_, hsum, ?_⟩
  · rw [NoWrap, ← exactSize]
    omega
  · rw [gt_iff_lt, BitVec.lt_def, hsum, h.inv.end_eq, hcap]
    change 0x400000 < _ ↔ _
    omega

/-- One request to the heap is one request to the exact allocator. -/
theorem Exact.step (h : Exact used c) (hsize : size.toNat ≤ heapCapacity) :
    Exact (bumpStep heapCapacity (exactSize size) used) (heapStep (.kmalloc size) c) := by
  obtain ⟨hwrap, hsum, hgt⟩ := h.gt_iff hsize
  by_cases hgt' : c.st.heapPosition + heapSize size > c.st.heapEnd
  · rw [heapStep_of_refused hgt', bumpStep_of_lt (hgt.mp hgt')]
    exact h
  · obtain ⟨hst, hblocks⟩ := h.inv.step_of_granted hgt'
    rw [bumpStep_of_le (Nat.le_of_not_lt fun hlt => hgt' (hgt.mpr hlt))]
    refine ⟨h.inv.step hwrap, ?_, ?_⟩
    · rw [hst]
      exact hsum
    · rw [grantedTotal, hblocks, List.map_cons, List.sum_cons, ← grantedTotal, h.total,
        Nat.add_comm]

/-- What one request returns and does. -/
theorem Exact.kmalloc (h : Exact used c) (hsize : size.toNat ≤ heapCapacity) :
    ((VVBright.kmalloc size).eval c.st ≠ NULL ↔ used + exactSize size ≤ heapCapacity) ∧
      ((VVBright.kmalloc size).eval c.st ≠ NULL →
        ((VVBright.kmalloc size).eval c.st).toNat = c.st.heapStart.toNat + used) ∧
      ((VVBright.kmalloc size).eval c.st = NULL → (VVBright.kmalloc size).exec c.st = c.st) := by
  obtain ⟨-, -, hgt⟩ := h.gt_iff hsize
  by_cases hgt' : c.st.heapPosition + heapSize size > c.st.heapEnd
  · obtain ⟨heval, hexec⟩ := kmalloc_of_gt hgt'
    have hlt := hgt.mp hgt'
    refine ⟨iff_of_false (not_not_intro heval) (by omega), fun hne => absurd heval hne, ?_⟩
    exact fun _ => hexec
  · obtain ⟨heval, -⟩ := kmalloc_of_le hgt'
    have hne : (VVBright.kmalloc size).eval c.st ≠ NULL := by
      rw [heval]
      exact h.inv.position_ne_null
    have hle : used + exactSize size ≤ heapCapacity :=
      Nat.le_of_not_lt fun hlt => hgt' (hgt.mpr hlt)
    refine ⟨iff_of_true hne hle, fun _ => ?_, fun hnull => absurd hnull hne⟩
    rw [heval, h.position, h.inv.start_eq]
    rfl

end

/-- A run of requests no larger than the heap is a run of the exact allocator. -/
lemma Exact.run {used : ℕ} {c : Client} (h : Exact used c) {sizes : List (BitVec 32)}
    (hsizes : ∀ size ∈ sizes, size.toNat ≤ heapCapacity) :
    Exact (runActions (bumpStep heapCapacity) (sizes.map exactSize) used)
      (runActions heapStep (sizes.map HeapOp.kmalloc) c) := by
  induction sizes generalizing used c with
  | nil => exact h
  | cons size sizes ih =>
    rw [List.forall_mem_cons] at hsizes
    exact ih (h.step hsizes.1) hsizes.2

/-- Requests that fit together all succeed. -/
lemma Exact.along_succeeds {used : ℕ} {c : Client} (h : Exact used c) {sizes : List (BitVec 32)}
    (hsizes : ∀ size ∈ sizes, size.toNat ≤ heapCapacity)
    (hsum : used + (sizes.map exactSize).sum ≤ heapCapacity) :
    Along heapStep HeapOp.Succeeds (sizes.map HeapOp.kmalloc) c := by
  induction sizes generalizing used c with
  | nil => trivial
  | cons size sizes ih =>
    rw [List.forall_mem_cons] at hsizes
    rw [List.map_cons, List.sum_cons] at hsum
    have hfits : used + exactSize size ≤ heapCapacity := by omega
    refine ⟨(h.kmalloc hsizes.1).1.mpr hfits, ih (h.step hsizes.1) hsizes.2 ?_⟩
    rw [bumpStep_of_le hfits]
    omega

/-- **The heap can be used up completely, in any order.**  After `heap_init`, for every list of
requests no larger than the heap: each request succeeds exactly when its rounded size and those of
the earlier successful requests fit in the heap together, its address is then the start of the heap
plus the earlier total, and a refused request changes nothing; the total is that of the exact
bump allocator.  If all the requests fit together, every permutation of them succeeds and ends at
the same position. -/
theorem kmalloc_agrees_with_bump (s : MemoryState) (sizes : List (BitVec 32))
    (hsizes : ∀ size ∈ sizes, size.toNat ≤ heapCapacity) :
    (∀ pre size post, sizes = pre ++ size :: post →
      grantedTotal (heapRun s pre) =
          runActions (bumpStep heapCapacity) (pre.map exactSize) 0 ∧
        ((kmalloc size).eval (heapRun s pre).st ≠ NULL ↔
          grantedTotal (heapRun s pre) + exactSize size ≤ heapCapacity) ∧
        ((kmalloc size).eval (heapRun s pre).st ≠ NULL →
          ((kmalloc size).eval (heapRun s pre).st).toNat =
            (heapRun s pre).st.heapStart.toNat + grantedTotal (heapRun s pre)) ∧
        ((kmalloc size).eval (heapRun s pre).st = NULL →
          (kmalloc size).exec (heapRun s pre).st = (heapRun s pre).st)) ∧
    ((sizes.map exactSize).sum ≤ heapCapacity → ∀ sizes', sizes'.Perm sizes →
      Along heapStep HeapOp.Succeeds (sizes'.map HeapOp.kmalloc) (heapClient s) ∧
        (heapRun s sizes').st.heapPosition = (heapRun s sizes).st.heapPosition) := by
  have hinit := exact_init s
  constructor
  · rintro pre size post rfl
    rw [List.forall_mem_append, List.forall_mem_cons] at hsizes
    have hexact := hinit.run hsizes.1
    have htotal : grantedTotal (heapRun s pre) =
        runActions (bumpStep heapCapacity) (pre.map exactSize) 0 := hexact.total
    rw [htotal]
    exact ⟨rfl, hexact.kmalloc hsizes.2.1⟩
  · intro hsum sizes' hperm
    have hsizes' : ∀ size ∈ sizes', size.toNat ≤ heapCapacity :=
      fun size hmem => hsizes size (hperm.mem_iff.mp hmem)
    have hsum' : (sizes'.map exactSize).sum = (sizes.map exactSize).sum :=
      (hperm.map exactSize).sum_eq
    refine ⟨hinit.along_succeeds hsizes' (by omega), ?_⟩
    apply BitVec.eq_of_toNat_eq
    calc (heapRun s sizes').st.heapPosition.toNat
        = 0x200000 + (0 + (sizes'.map exactSize).sum) := by
          rw [heapRun, (hinit.run hsizes').position, runActions_bumpStep_of_sum_le (by omega)]
      _ = 0x200000 + (0 + (sizes.map exactSize).sum) := by rw [hsum']
      _ = (heapRun s sizes).st.heapPosition.toNat := by
          rw [heapRun, (hinit.run hsizes).position, runActions_bumpStep_of_sum_le (by omega)]

/-- A request that ends exactly at the end of the heap succeeds after a refused one. -/
theorem kmalloc_agrees_with_bump_last_bytes :
    (kmalloc 9#32).eval (heapRun blankState [0x1FFFF0#32, 0x20#32]).st ≠ NULL := by
  have hcap : heapCapacity = 0x200000 := rfl
  have hsizes : ∀ size ∈ [0x1FFFF0#32, 0x20#32, 9#32], size.toNat ≤ heapCapacity := by simp [hcap]
  obtain ⟨htotal, hiff, -, -⟩ :=
    (kmalloc_agrees_with_bump blankState _ hsizes).1 [0x1FFFF0#32, 0x20#32] 9#32 [] rfl
  rw [hiff, htotal, hcap]
  simp [runActions, bumpStep, exactSize, roundUp8]

end VVBright
