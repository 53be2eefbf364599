import VVBright.Foundation.Runs
import Mathlib.Data.Finset.Card
import Mathlib.Data.List.Nodup

/-!
# First-fit allocation of numbered slots

The purpose of a bitmap allocator, without the bitmap: slots are numbered `0, …, N - 1`, a finite
set records which are taken, an allocation takes the least free one and a release gives one back.

`Pool` adds the bookkeeping of one client: the slots it holds, and how many allocations and
releases succeeded.  A client that releases only slots it holds never holds a slot twice, holds
only taken slots, and the number of taken slots is accounted for (`Pool.Inv`, preserved along
every run by `Pool.Inv.step`).
-/

namespace VVBright

/-- The least slot below `N` that is not taken. -/
def leastFree (N : ℕ) (S : Finset ℕ) : Option ℕ := (List.range N).find? fun k => k ∉ S

/-- Every slot is taken exactly when no least free slot exists. -/
lemma leastFree_eq_none_iff {N : ℕ} {S : Finset ℕ} :
    leastFree N S = none ↔ ∀ k < N, k ∈ S := by
  simp [leastFree, List.find?_eq_none]

/-- The least free slot is free and every smaller slot is taken. -/
lemma leastFree_eq_some_iff {N : ℕ} {S : Finset ℕ} {k : ℕ} :
    leastFree N S = some k ↔ k < N ∧ k ∉ S ∧ ∀ j < k, j ∈ S := by
  rw [leastFree, List.find?_range_eq_some]
  simp only [decide_eq_true_eq, List.mem_range, Bool.not_eq_true', decide_eq_false_iff_not, not_not]
  tauto

/-- If some slot below `m` is free then so is the least free one. -/
lemma leastFree_lt {N : ℕ} {S : Finset ℕ} {k m : ℕ} (h : leastFree N S = some k) {j : ℕ}
    (hj : j < m) (hfree : j ∉ S) : k < m := by
  by_contra hk
  exact hfree ((leastFree_eq_some_iff.mp h).2.2 j (by omega))

/-- When the taken slots are the first ones, the least free slot is the next one. -/
lemma leastFree_range {N m : ℕ} (h : m < N) : leastFree N (Finset.range m) = some m := by
  rw [leastFree_eq_some_iff]
  exact ⟨h, by simp, fun j hj => Finset.mem_range.mpr hj⟩

/-- With fewer than `m` slots taken the least free one is below `m`. -/
lemma leastFree_lt_of_card_lt {N : ℕ} {S : Finset ℕ} {k m : ℕ} (h : leastFree N S = some k)
    (hcard : S.card < m) : k < m := by
  by_contra hk
  have hsub : Finset.range m ⊆ S := fun j hj =>
    (leastFree_eq_some_iff.mp h).2.2 j (by rw [Finset.mem_range] at hj; omega)
  have hle := Finset.card_le_card hsub
  rw [Finset.card_range] at hle
  omega

/-- When only slots below `m` are taken and one of them is free, fewer than `m` are taken. -/
lemma card_lt_of_leastFree_lt {N : ℕ} {S : Finset ℕ} {k m : ℕ} (h : leastFree N S = some k)
    (hbelow : ∀ j ∈ S, j < m) (hk : k < m) : S.card < m := by
  have hssub : S ⊂ Finset.range m := by
    rw [Finset.ssubset_iff_of_subset fun j hj => Finset.mem_range.mpr (hbelow j hj)]
    exact ⟨k, Finset.mem_range.mpr hk, (leastFree_eq_some_iff.mp h).2.1⟩
  have hlt := Finset.card_lt_card hssub
  rwa [Finset.card_range] at hlt

/-- A client of the allocator: the taken slots, the slots the client holds, and how many
allocations and releases succeeded. -/
structure Pool where
  /-- The taken slots. -/
  marked : Finset ℕ
  /-- The slots held by the client. -/
  held : List ℕ
  /-- The number of successful allocations. -/
  allocs : ℕ
  /-- The number of releases. -/
  frees : ℕ

/-- What a client can ask for. -/
inductive PoolOp where
  | alloc
  | free (k : ℕ)

/-- One request: an allocation takes the least free slot, if there is one. -/
def Pool.step (N : ℕ) : PoolOp → Pool → Pool
  | .alloc, p =>
    match leastFree N p.marked with
    | none => p
    | some k => ⟨insert k p.marked, k :: p.held, p.allocs + 1, p.frees⟩
  | .free k, p => ⟨p.marked.erase k, p.held.erase k, p.allocs, p.frees + 1⟩

section

variable {N k : ℕ} {p : Pool}

lemma Pool.step_alloc_of_none (h : leastFree N p.marked = none) : Pool.step N .alloc p = p := by
  simp only [Pool.step, h]

lemma Pool.step_alloc_of_some (h : leastFree N p.marked = some k) :
    Pool.step N .alloc p = ⟨insert k p.marked, k :: p.held, p.allocs + 1, p.frees⟩ := by
  simp only [Pool.step, h]

end

/-- A client releases only slots it holds. -/
def Pool.Legal : PoolOp → Pool → Prop
  | .alloc, _ => True
  | .free k, p => k ∈ p.held

/-- The accounting invariant of a client that started when `n₀` slots were taken. -/
structure Pool.Inv (N n₀ : ℕ) (p : Pool) : Prop where
  /-- The held slots exist. -/
  held_lt : ∀ k ∈ p.held, k < N
  /-- The held slots are taken. -/
  held_marked : ∀ k ∈ p.held, k ∈ p.marked
  /-- No slot is held twice. -/
  nodup : p.held.Nodup
  /-- The taken slots are the initial ones, plus the allocated ones, minus the released ones. -/
  card : p.marked.card + p.frees = n₀ + p.allocs

/-- A client that holds nothing satisfies the invariant. -/
lemma Pool.Inv.init (N : ℕ) (S : Finset ℕ) : Pool.Inv N S.card ⟨S, [], 0, 0⟩ where
  held_lt := by simp
  held_marked := by simp
  nodup := List.nodup_nil
  card := rfl

/-- Every legal request preserves the invariant. -/
theorem Pool.Inv.step {N n₀ : ℕ} {op : PoolOp} {p : Pool} (h : Pool.Inv N n₀ p)
    (hop : Pool.Legal op p) : Pool.Inv N n₀ (Pool.step N op p) := by
  cases op with
  | alloc =>
    cases hk : leastFree N p.marked with
    | none =>
      rw [Pool.step_alloc_of_none hk]
      exact h
    | some k =>
      obtain ⟨hlt, hfree, -⟩ := leastFree_eq_some_iff.mp hk
      rw [Pool.step_alloc_of_some hk]
      refine ⟨?_, ?_, ?_, ?_⟩
      · intro j hj
        rcases List.mem_cons.mp hj with rfl | hj
        · exact hlt
        · exact h.held_lt j hj
      · intro j hj
        rcases List.mem_cons.mp hj with rfl | hj
        · exact Finset.mem_insert_self _ _
        · exact Finset.mem_insert_of_mem (h.held_marked j hj)
      · exact List.nodup_cons.mpr ⟨fun hmem => hfree (h.held_marked k hmem), h.nodup⟩
      · have hcard := h.card
        change (insert k p.marked).card + p.frees = n₀ + (p.allocs + 1)
        rw [Finset.card_insert_of_notMem hfree]
        omega
  | free k =>
    have hmarked : k ∈ p.marked := h.held_marked k hop
    refine ⟨fun j hj => h.held_lt j (List.mem_of_mem_erase hj), ?_, h.nodup.erase k, ?_⟩
    · intro j hj
      have hne := (h.nodup.mem_erase_iff.mp hj).1
      exact Finset.mem_erase.mpr ⟨hne, h.held_marked j (List.mem_of_mem_erase hj)⟩
    · have hcard := h.card
      have hpos : 0 < p.marked.card := Finset.card_pos.mpr ⟨k, hmarked⟩
      simp only [Pool.step, Finset.card_erase_of_mem hmarked]
      omega

end VVBright
