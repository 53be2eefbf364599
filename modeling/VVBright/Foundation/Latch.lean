import VVBright.Foundation.Runs

/-!
# Latches

A latch is a flag of a system that some actions set, some clear, and all others leave alone.  After
a run that starts with the flag cleared, it is set exactly when an action that sets it has occurred
and none that clears it has followed (`IsLatch.run_iff`).
-/

namespace VVBright

variable {σ α : Type}

/-- Some action of the list sets the flag, and none after it clears it. -/
def LastSet (sets clears : α → Prop) (as : List α) : Prop :=
  ∃ before a after, as = before ++ a :: after ∧ sets a ∧ ∀ b ∈ after, ¬ clears b

/-- The actions `sets` set the flag, the actions `clears` clear it, and all others keep it. -/
structure IsLatch (step : α → σ → σ) (flag : σ → Prop) (sets clears : α → Prop) : Prop where
  set : ∀ a s, sets a → flag (step a s)
  clear : ∀ a s, clears a → ¬ flag (step a s)
  keep : ∀ a s, ¬ sets a → ¬ clears a → (flag (step a s) ↔ flag s)

section

variable {sets clears : α → Prop}

lemma not_lastSet_nil : ¬ LastSet sets clears [] := by
  rintro ⟨before, a, after, heq, -⟩
  simp at heq

lemma lastSet_concat {as : List α} {a : α} :
    LastSet sets clears (as ++ [a]) ↔ sets a ∨ ¬ clears a ∧ LastSet sets clears as := by
  constructor
  · rintro ⟨before, b, after, heq, hset, hclear⟩
    rcases List.eq_nil_or_concat after with rfl | ⟨after', c, rfl⟩
    · obtain ⟨-, rfl⟩ := List.append_inj' heq rfl |>.imp_right List.head_eq_of_cons_eq
      exact Or.inl hset
    · rw [List.concat_eq_append, ← List.cons_append, ← List.append_assoc] at heq
      obtain ⟨rfl, hlast⟩ := List.append_inj' heq rfl
      obtain rfl : a = c := List.head_eq_of_cons_eq hlast
      refine Or.inr ⟨hclear a (by simp), before, b, after', rfl, hset, fun d hd => ?_⟩
      exact hclear d (by simp [hd])
  · rintro (hset | ⟨hkeep, before, b, after, rfl, hset, hclear⟩)
    · exact ⟨as, a, [], rfl, hset, by simp⟩
    · refine ⟨before, b, after ++ [a], by simp, hset, fun d hd => ?_⟩
      rcases List.mem_append.mp hd with hd | hd
      · exact hclear d hd
      · rw [List.mem_singleton.mp hd]
        exact hkeep

variable {step : α → σ → σ} {flag : σ → Prop}

/-- A latch that is clear at first is set exactly when it was set last. -/
theorem IsLatch.run_iff (h : IsLatch step flag sets clears) {s : σ} (hs : ¬ flag s) (as : List α) :
    flag (runActions step as s) ↔ LastSet sets clears as := by
  induction as using List.reverseRecOn with
  | nil => exact iff_of_false hs not_lastSet_nil
  | append_singleton as a ih =>
    rw [runActions_append, runActions, runActions, lastSet_concat]
    by_cases hset : sets a
    · exact iff_of_true (h.set a _ hset) (Or.inl hset)
    · rw [or_iff_right hset]
      by_cases hclear : clears a
      · exact iff_of_false (h.clear a _ hclear) fun hand => hand.1 hclear
      · rw [h.keep a _ hset hclear, ih, and_iff_right hclear]

end

end VVBright
