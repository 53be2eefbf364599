import VVBright.Memory.State

/-!
# The kernel heap

`heap_init`, `kmalloc` and `kfree` of `memory.c`: a bump allocator whose arithmetic is that of
32-bit unsigned integers.  `roundUp8` is the rounding the code intends; `toNat_heapSize` says what
the code computes, which is the same up to a wrap-around.
-/

namespace VVBright

open Traced

/-- `heap_init`. -/
def heapInit : MemM Unit := do
  modify fun s => { s with heapStart := heapMemoryStart }
  modify fun s => { s with heapEnd := heapMemoryEnd }
  modify fun s => { s with heapPosition := s.heapStart }

/-- `(size + 7) & ~7`, the size `kmalloc` reserves. -/
def heapSize (size : BitVec 32) : BitVec 32 := (size + 7#32) &&& ~~~7#32

/-- `kmalloc`. -/
def kmalloc (size : BitVec 32) : MemM (BitVec 32) := do
  let size := heapSize size
  let heapPosition ← gets MemoryState.heapPosition
  let heapEnd ← gets MemoryState.heapEnd
  if heapPosition + size > heapEnd then
    pure NULL
  else do
    let ptr ← gets MemoryState.heapPosition
    modify fun s => { s with heapPosition := s.heapPosition + size }
    pure ptr

/-- `kfree`, which does nothing. -/
def kfree (_ptr : BitVec 32) : MemM Unit := pure ()

/-- The least multiple of eight that is at least `n`. -/
def roundUp8 (n : ℕ) : ℕ := (n + 7) / 8 * 8

lemma exec_heapInit (s : MemoryState) :
    heapInit.exec s = { s with
      heapStart := heapMemoryStart
      heapEnd := heapMemoryEnd
      heapPosition := heapMemoryStart } := rfl

/-- Clearing the three low bits rounds down to a multiple of eight. -/
lemma toNat_and_not_seven (x : BitVec 32) : (x &&& ~~~7#32).toNat = x.toNat / 8 * 8 := by
  have hshift : x &&& ~~~7#32 = (x >>> 3) <<< 3 := by
    apply BitVec.eq_of_getLsbD_eq
    intro i hi
    rw [BitVec.getLsbD_and, BitVec.getLsbD_not, BitVec.getLsbD_shiftLeft,
      BitVec.getLsbD_ushiftRight]
    interval_cases i <;> simp
  have hx := x.isLt
  rw [hshift, BitVec.toNat_shiftLeft, BitVec.toNat_ushiftRight, Nat.shiftRight_eq_div_pow,
    Nat.shiftLeft_eq]
  omega

/-- The reserved size is the size rounded up, computed modulo `2 ^ 32`. -/
lemma toNat_heapSize (size : BitVec 32) :
    (heapSize size).toNat = (size.toNat + 7) % 2 ^ 32 / 8 * 8 := by
  rw [heapSize, toNat_and_not_seven, BitVec.toNat_add]
  rfl

/-- Without wrap-around the reserved size is the size rounded up. -/
lemma toNat_heapSize_of_le {size : BitVec 32} (h : roundUp8 size.toNat < 2 ^ 32) :
    (heapSize size).toNat = roundUp8 size.toNat := by
  rw [toNat_heapSize]
  rw [roundUp8] at h ⊢
  omega

/-- A refused request changes nothing. -/
lemma kmalloc_of_gt {size : BitVec 32} {s : MemoryState}
    (h : s.heapPosition + heapSize size > s.heapEnd) :
    (kmalloc size).eval s = NULL ∧ (kmalloc size).exec s = s := by
  constructor
  · rw [kmalloc, eval_bind, eval_bind, eval_gets, exec_gets, eval_gets, exec_gets, if_pos h,
      eval_pure]
  · rw [kmalloc, exec_bind, exec_bind, eval_gets, exec_gets, eval_gets, exec_gets, if_pos h,
      exec_pure]

/-- A granted request returns the old position and advances it. -/
lemma kmalloc_of_le {size : BitVec 32} {s : MemoryState}
    (h : ¬ s.heapPosition + heapSize size > s.heapEnd) :
    (kmalloc size).eval s = s.heapPosition ∧
      (kmalloc size).exec s = { s with heapPosition := s.heapPosition + heapSize size } := by
  constructor
  · rw [kmalloc, eval_bind, eval_bind, eval_gets, exec_gets, eval_gets, exec_gets, if_neg h]
    rfl
  · rw [kmalloc, exec_bind, exec_bind, eval_gets, exec_gets, eval_gets, exec_gets, if_neg h]
    rfl

/-- `kmalloc` moves the position of the heap and nothing else. -/
lemma exists_exec_kmalloc (size : BitVec 32) (s : MemoryState) :
    ∃ position, (kmalloc size).exec s = { s with heapPosition := position } := by
  by_cases hgt : s.heapPosition + heapSize size > s.heapEnd
  · exact ⟨_, (kmalloc_of_gt hgt).2⟩
  · exact ⟨_, (kmalloc_of_le hgt).2⟩

end VVBright
