import Mathlib.Tactic

/-!
# Bits and bit fields of machine words

Words of a fixed width are read bit by bit with `BitVec.getLsbD`.  A bit is set by `w ||| 1 <<< k`
and cleared by `w &&& ~~~(1 <<< k)`, the two idioms of bitmap code; a field of `len` bits at
position `lo` is overwritten by `setField`, the meaning of an assignment to a C bit field.  Each
operation is characterised by the bits of its result.
-/

namespace VVBright

variable {w : ℕ}

/-! ## Single bits -/

/-- The bits of the one-bit mask `1 <<< k`. -/
lemma getLsbD_one_shiftLeft {k : ℕ} (hk : k < w) (j : ℕ) :
    (1#w <<< k).getLsbD j = decide (j = k) := by
  rw [← BitVec.twoPow_eq, BitVec.getLsbD_twoPow]
  simp [hk, eq_comm]

/-- Setting the bit `k` changes no other bit. -/
theorem getLsbD_or_one_shiftLeft (x : BitVec w) {k : ℕ} (hk : k < w) (j : ℕ) :
    (x ||| 1#w <<< k).getLsbD j = (decide (j = k) || x.getLsbD j) := by
  rw [BitVec.getLsbD_or, getLsbD_one_shiftLeft hk, Bool.or_comm]

/-- Clearing the bit `k` changes no other bit. -/
theorem getLsbD_and_not_one_shiftLeft (x : BitVec w) {k : ℕ} (hk : k < w) (j : ℕ) :
    (x &&& ~~~(1#w <<< k)).getLsbD j = (!decide (j = k) && x.getLsbD j) := by
  rw [BitVec.getLsbD_and, BitVec.getLsbD_not, getLsbD_one_shiftLeft hk]
  by_cases hj : j < w
  · simp [hj, Bool.and_comm]
  · simp [hj, BitVec.getLsbD_of_ge x j (by omega)]

/-- Testing the bit `k` with a one-bit mask. -/
theorem and_one_shiftLeft_eq_zero_iff (x : BitVec w) {k : ℕ} (hk : k < w) :
    x &&& 1#w <<< k = 0#w ↔ x.getLsbD k = false := by
  constructor
  · intro h
    have hbit := congrArg (fun y => y.getLsbD k) h
    simpa [BitVec.getLsbD_and, getLsbD_one_shiftLeft hk] using hbit
  · intro h
    apply BitVec.eq_of_getLsbD_eq
    intro j hj
    rw [BitVec.getLsbD_and, getLsbD_one_shiftLeft hk, BitVec.getLsbD_zero]
    by_cases hjk : j = k
    · simp [hjk, h]
    · simp [hjk]

/-- A word is all ones exactly when each of its bits is set. -/
theorem eq_allOnes_iff (x : BitVec w) :
    x = BitVec.allOnes w ↔ ∀ k < w, x.getLsbD k = true := by
  constructor
  · rintro rfl k hk
    simp [hk]
  · intro h
    apply BitVec.eq_of_getLsbD_eq
    intro k hk
    simp [h k hk, hk]

/-! ## Bit fields -/

/-- The word with ones exactly at the positions `lo, …, lo + len - 1`. -/
def fieldMask (w lo len : ℕ) : BitVec w := (BitVec.allOnes len).setWidth w <<< lo

/-- The word `x` with the field of `len` bits at position `lo` overwritten by the low bits of
`v`. -/
def setField (lo len : ℕ) (v x : BitVec w) : BitVec w :=
  (x &&& ~~~fieldMask w lo len) ||| ((v <<< lo) &&& fieldMask w lo len)

/-- The bits of a field mask. -/
lemma getLsbD_fieldMask (lo len : ℕ) {i : ℕ} (hi : i < w) :
    (fieldMask w lo len).getLsbD i = decide (lo ≤ i ∧ i < lo + len) := by
  rw [fieldMask, BitVec.getLsbD_shiftLeft, BitVec.getLsbD_setWidth, BitVec.getLsbD_allOnes]
  by_cases h : lo ≤ i
  · have h1 : i - lo < w := by omega
    have h2 : (i - lo < len) = (i < lo + len) := by simp only [eq_iff_iff]; omega
    simp [h, h1, h2, hi]
  · simp [h, Nat.lt_of_not_le h]

/-- Overwriting a field replaces the bits inside it and keeps the others. -/
theorem getLsbD_setField (lo len : ℕ) (v x : BitVec w) {i : ℕ} (hi : i < w) :
    (setField lo len v x).getLsbD i =
      if lo ≤ i ∧ i < lo + len then v.getLsbD (i - lo) else x.getLsbD i := by
  rw [setField, BitVec.getLsbD_or, BitVec.getLsbD_and, BitVec.getLsbD_and, BitVec.getLsbD_not,
    getLsbD_fieldMask lo len hi, BitVec.getLsbD_shiftLeft]
  by_cases h : lo ≤ i ∧ i < lo + len
  · simp [h, hi, Nat.not_lt.mpr h.1]
  · simp [h, hi]

end VVBright
