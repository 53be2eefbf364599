import VVBright.Foundation.Runs

/-!
# A first-come bump allocator

The allocator has a capacity and remembers how much of it is used.  A request that still fits is
granted and adds to the amount used, any other is refused and changes nothing.  A list of requests
that fit together is granted as a whole, in whatever order they come
(`runActions_bumpStep_of_sum_le`).
-/

namespace VVBright

/-- The amount used after one request for `size`, of a capacity `N`. -/
def bumpStep (N size used : ℕ) : ℕ := if used + size ≤ N then used + size else used

section

variable {N size used : ℕ} {sizes : List ℕ}

lemma bumpStep_of_le (h : used + size ≤ N) : bumpStep N size used = used + size := if_pos h

lemma bumpStep_of_lt (h : N < used + size) : bumpStep N size used = used :=
  if_neg (Nat.not_le_of_lt h)

/-- Requests that fit together use as much as they ask for. -/
theorem runActions_bumpStep_of_sum_le (h : used + sizes.sum ≤ N) :
    runActions (bumpStep N) sizes used = used + sizes.sum := by
  induction sizes generalizing used with
  | nil => rfl
  | cons size sizes ih =>
    rw [List.sum_cons] at h ⊢
    rw [runActions, bumpStep_of_le (by omega), ih (by omega)]
    omega

end

end VVBright
