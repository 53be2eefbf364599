import Mathlib.Data.List.Nodup
import Mathlib.Data.Set.Card
import Mathlib.Tactic

/-!
# Accounting for numbered slots

A finite set of marked numbers is shared out among two kinds of owners: a list of held numbers, and
a family of cells, each of which contains one number or is empty.  The number 0 is nobody's: it
stands for an empty cell and is always marked.  `Accounts` says that every marked number but 0 has
exactly one owner.  A free number can be handed out (`Accounts.take`) or put into an empty cell
(`Accounts.install`), and a held number can be released (`Accounts.release`).  So the marked numbers
can be counted by their owners (`Accounts.card_marked`).
-/

namespace VVBright

/-- Every marked number other than 0 has exactly one owner, and every owned number is marked. -/
structure Accounts {ι : Type} (held : List ℕ) (cell : ι → ℕ) (marked : Finset ℕ) : Prop where
  /-- The number 0 is not held. -/
  zero_notMem : 0 ∉ held
  /-- No number is held twice. -/
  nodup : held.Nodup
  /-- No number is in two cells. -/
  cell_injective : ∀ i j, cell i ≠ 0 → cell i = cell j → i = j
  /-- No number is held and in a cell. -/
  cell_notMem : ∀ i, cell i ∉ held
  /-- The marked numbers are 0 and the owned ones. -/
  mem_marked_iff : ∀ k, k ∈ marked ↔ k = 0 ∨ k ∈ held ∨ ∃ i, cell i = k

namespace Accounts

variable {ι : Type} {held : List ℕ} {cell : ι → ℕ} {marked : Finset ℕ} {k : ℕ}

/-- A number that is not marked is nobody's. -/
lemma unowned (h : Accounts held cell marked) (hk : k ∉ marked) :
    k ≠ 0 ∧ k ∉ held ∧ ∀ i, cell i ≠ k := by
  rw [h.mem_marked_iff, not_or, not_or, not_exists] at hk
  exact hk

/-- A free number is handed out. -/
lemma take (h : Accounts held cell marked) (hk : k ∉ marked) :
    Accounts (k :: held) cell (insert k marked) := by
  obtain ⟨hzero, hheld, hcell⟩ := h.unowned hk
  refine ⟨?_, h.nodup.cons hheld, h.cell_injective, ?_, ?_⟩
  · rw [List.mem_cons, not_or]
    exact ⟨hzero.symm, h.zero_notMem⟩
  · intro i
    rw [List.mem_cons, not_or]
    exact ⟨hcell i, h.cell_notMem i⟩
  · intro j
    rw [Finset.mem_insert, h.mem_marked_iff, List.mem_cons]
    exact ⟨by rintro (h | h | h | h) <;> simp [h], by rintro (h | (h | h) | h) <;> simp [h]⟩

/-- A held number is released. -/
lemma release (h : Accounts held cell marked) (hk : k ∈ held) :
    Accounts (held.filter fun j => j ≠ k) cell (marked.erase k) := by
  refine ⟨?_, h.nodup.filter _, h.cell_injective, ?_, ?_⟩
  · exact fun hmem => h.zero_notMem (List.mem_of_mem_filter hmem)
  · exact fun i hmem => h.cell_notMem i (List.mem_of_mem_filter hmem)
  · intro j
    rw [Finset.mem_erase, h.mem_marked_iff, List.mem_filter, decide_eq_true_eq]
    constructor
    · rintro ⟨hne, hj | hj | hj⟩
      · exact Or.inl hj
      · exact Or.inr (Or.inl ⟨hj, hne⟩)
      · exact Or.inr (Or.inr hj)
    · -- a held number is neither 0 nor in a cell
      rintro (rfl | ⟨hj, hne⟩ | ⟨i, rfl⟩)
      · exact ⟨fun h0 => h.zero_notMem (h0 ▸ hk), Or.inl rfl⟩
      · exact ⟨hne, Or.inr (Or.inl hj)⟩
      · exact ⟨fun hi => h.cell_notMem i (hi ▸ hk), Or.inr (Or.inr ⟨i, rfl⟩)⟩

/-- A free number is put into an empty cell. -/
lemma install [DecidableEq ι] (h : Accounts held cell marked) (hk : k ∉ marked) {i : ι}
    (hi : cell i = 0) : Accounts held (Function.update cell i k) (insert k marked) := by
  obtain ⟨hzero, hheld, hcell⟩ := h.unowned hk
  refine ⟨h.zero_notMem, h.nodup, ?_, ?_, ?_⟩
  · intro a b hne heq
    by_cases ha : a = i <;> by_cases hb : b = i
    · exact ha.trans hb.symm
    · rw [ha, Function.update_self, Function.update_of_ne hb] at heq
      exact absurd heq.symm (hcell b)
    · rw [hb, Function.update_self, Function.update_of_ne ha] at heq
      exact absurd heq (hcell a)
    · rw [Function.update_of_ne ha] at hne heq
      rw [Function.update_of_ne hb] at heq
      exact h.cell_injective a b hne heq
  · intro a
    by_cases ha : a = i
    · rw [ha, Function.update_self]
      exact hheld
    · rw [Function.update_of_ne ha]
      exact h.cell_notMem a
  · intro j
    rw [Finset.mem_insert, h.mem_marked_iff]
    constructor
    · rintro (rfl | hj | hj | ⟨a, rfl⟩)
      · exact Or.inr (Or.inr ⟨i, Function.update_self ..⟩)
      · exact Or.inl hj
      · exact Or.inr (Or.inl hj)
      · -- the cell that is filled contained nothing
        by_cases ha : a = i
        · rw [ha, hi]
          exact Or.inl rfl
        · exact Or.inr (Or.inr ⟨a, Function.update_of_ne ha ..⟩)
    · rintro (hj | hj | ⟨a, rfl⟩)
      · exact Or.inr (Or.inl hj)
      · exact Or.inr (Or.inr (Or.inl hj))
      · by_cases ha : a = i
        · rw [ha, Function.update_self]
          exact Or.inl rfl
        · rw [Function.update_of_ne ha]
          exact Or.inr (Or.inr (Or.inr ⟨a, rfl⟩))

/-- The number of marked numbers: 0, the held ones and one for every cell that is not empty. -/
lemma card_marked (h : Accounts held cell marked) :
    marked.card = 1 + held.length + {i | cell i ≠ 0}.ncard := by
  have hinj : Set.InjOn cell {i | cell i ≠ 0} := fun i hi j _ heq => h.cell_injective i j hi heq
  have hcells : (((marked.erase 0) \ held.toFinset : Finset ℕ) : Set ℕ) =
      cell '' {i | cell i ≠ 0} := by
    ext k
    simp only [Finset.coe_sdiff, Finset.coe_erase, Set.mem_sdiff, Finset.mem_coe, h.mem_marked_iff,
      Set.mem_singleton_iff, List.mem_toFinset, Set.mem_image, Set.mem_ofPred_eq]
    constructor
    · rintro ⟨⟨h0 | hheld | ⟨i, rfl⟩, hne⟩, hnot⟩
      · exact absurd h0 hne
      · exact absurd hheld hnot
      · exact ⟨i, hne, rfl⟩
    · rintro ⟨i, hne, rfl⟩
      exact ⟨⟨Or.inr (Or.inr ⟨i, rfl⟩), hne⟩, h.cell_notMem i⟩
  have hzero : 0 ∈ marked := (h.mem_marked_iff 0).mpr (Or.inl rfl)
  have hsub : held.toFinset ⊆ marked.erase 0 := by
    intro k hk
    rw [List.mem_toFinset] at hk
    exact Finset.mem_erase.mpr ⟨fun h0 => h.zero_notMem (h0 ▸ hk),
      (h.mem_marked_iff k).mpr (Or.inr (Or.inl hk))⟩
  rw [← hinj.ncard_image, ← hcells, Set.ncard_coe_finset,
    Finset.card_sdiff_of_subset hsub, List.toFinset_card_of_nodup h.nodup,
    Finset.card_erase_of_mem hzero]
  have hle := Finset.card_le_card hsub
  rw [List.toFinset_card_of_nodup h.nodup, Finset.card_erase_of_mem hzero] at hle
  have hpos : 0 < marked.card := Finset.card_pos.mpr ⟨0, hzero⟩
  omega

end Accounts

end VVBright
