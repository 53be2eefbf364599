import Mathlib.Tactic

/-!
# Runs of a deterministic system

A system is given by a step function `step : α → σ → σ`.  `runActions` performs a list of actions,
`Along ok` says that every action of a run satisfies `ok` in the state it is performed in.  An
invariant that every permitted action preserves holds in every state of a permitted run
(`Along.invariant`), and under such an invariant one predicate on the steps of a run can be
exchanged for another (`Along.imp`).  A part of a system that the other actions leave alone can be
studied by itself (`Along.simulation`).
-/

namespace VVBright

variable {σ α : Type}

/-- The state after performing a list of actions. -/
def runActions (step : α → σ → σ) : List α → σ → σ
  | [], s => s
  | a :: as, s => runActions step as (step a s)

/-- Every action of the run satisfies `ok` in the state it is performed in. -/
def Along (step : α → σ → σ) (ok : α → σ → Prop) : List α → σ → Prop
  | [], _ => True
  | a :: as, s => ok a s ∧ Along step ok as (step a s)

section

variable {step : α → σ → σ} {ok P : α → σ → Prop} {as bs : List α} {s : σ}

/-- A run of two lists is a run of the second after a run of the first. -/
lemma runActions_append (step : α → σ → σ) (as bs : List α) (s : σ) :
    runActions step (as ++ bs) s = runActions step bs (runActions step as s) := by
  induction as generalizing s with
  | nil => rfl
  | cons a as ih => exact ih (step a s)

/-- One action performed `n` times. -/
lemma runActions_replicate (step : α → σ → σ) (n : ℕ) (a : α) (s : σ) :
    runActions step (List.replicate n a) s = (step a)^[n] s := by
  induction n generalizing s with
  | zero => rfl
  | succ n ih => exact ih (step a s)

/-- The actions of an appended run are those of its two parts. -/
lemma along_append : Along step ok (as ++ bs) s ↔
    Along step ok as s ∧ Along step ok bs (runActions step as s) := by
  induction as generalizing s with
  | nil => simp [Along, runActions]
  | cons a as ih => simp only [List.cons_append, Along, runActions, ih, and_assoc]

/-- A predicate of all steps of a run is a predicate of the steps of every initial part. -/
lemma Along.initial (h : Along step ok as s) (hp : bs <+: as) : Along step ok bs s := by
  obtain ⟨cs, rfl⟩ := hp
  exact (along_append.mp h).1

/-- A predicate of the actions alone. -/
lemma along_actions (step : α → σ → σ) {P : α → Prop} (as : List α) (s : σ) :
    Along step (fun a _ => P a) as s ↔ ∀ a ∈ as, P a := by
  induction as generalizing s with
  | nil => simp [Along]
  | cons a as ih => rw [Along, ih, List.forall_mem_cons]

lemma along_true (as : List α) (s : σ) : Along step (fun _ _ => True) as s :=
  (along_actions step as s).mpr fun _ _ => trivial

/-- Two predicates of all steps of a run can be joined. -/
lemma Along.and (h : Along step ok as s) (h' : Along step P as s) :
    Along step (fun a t => ok a t ∧ P a t) as s := by
  induction as generalizing s with
  | nil => trivial
  | cons a as ih => exact ⟨⟨h.1, h'.1⟩, ih h.2 h'.2⟩

lemma Along.mono (h : Along step ok as s) (himp : ∀ a t, ok a t → P a t) :
    Along step P as s := by
  induction as generalizing s with
  | nil => trivial
  | cons a as ih => exact ⟨himp a s h.1, ih h.2⟩

/-- Under an invariant, a predicate on the steps of a run can be weakened. -/
theorem Along.imp {Inv : σ → Prop} (h : Along step ok as s) (hs : Inv s)
    (hinv : ∀ a t, Inv t → ok a t → Inv (step a t)) (himp : ∀ a t, Inv t → ok a t → P a t) :
    Along step P as s := by
  induction as generalizing s with
  | nil => trivial
  | cons a as ih => exact ⟨himp a s hs h.1, ih h.2 (hinv a s hs h.1)⟩

/-- An invariant preserved by every permitted action holds at the end of a permitted run. -/
theorem Along.invariant {Inv : σ → Prop} (h : Along step ok as s) (hs : Inv s)
    (hinv : ∀ a t, Inv t → ok a t → Inv (step a t)) : Inv (runActions step as s) := by
  induction as generalizing s with
  | nil => exact hs
  | cons a as ih => exact ih h.2 (hinv a s hs h.1)

/-- An invariant preserved by every permitted action holds in every state of a permitted run. -/
theorem Along.invariant_initial {Inv : σ → Prop} (h : Along step ok as s) (hs : Inv s)
    (hinv : ∀ a t, Inv t → ok a t → Inv (step a t)) (hp : bs <+: as) :
    Inv (runActions step bs s) :=
  (h.initial hp).invariant hs hinv

/-- Converse of the invariant rule: if in the states of the invariant only permitted actions lead to
good states, then a run that visits good states only is permitted.  `K` is what is known of the run
beforehand. -/
theorem along_of_forall_initial {Inv Good : σ → Prop} {K : α → σ → Prop} (hs : Inv s)
    (hK : Along step K as s) (hinv : ∀ a t, Inv t → K a t → ok a t → Inv (step a t))
    (hok : ∀ a t, Inv t → K a t → Good (step a t) → ok a t)
    (hgood : ∀ bs, bs <+: as → Good (runActions step bs s)) : Along step ok as s := by
  induction as generalizing s with
  | nil => trivial
  | cons a as ih =>
    have hone : [a] <+: a :: as := ⟨as, rfl⟩
    have ha : ok a s := hok a s hs hK.1 (hgood [a] hone)
    refine ⟨ha, ih (hinv a s hs hK.1 ha) hK.2 fun bs hbs => ?_⟩
    exact hgood (a :: bs) ((List.prefix_cons_inj a).mpr hbs)

end

/-! ## Parts of a system -/

/-- A part of a system runs by itself.  `proj` picks the actions of the part; if these are simulated
by `step'` and the others leave the part alone, the part is after a run where its own actions alone
would have brought it. -/
theorem Along.simulation {τ β : Type} {step : α → σ → σ} {ok : α → σ → Prop} {as : List α} {s : σ}
    {step' : β → τ → τ} (proj : α → Option β) {R : σ → τ → Prop} {t : τ}
    (h : Along step ok as s) (hR : R s t)
    (hsome : ∀ a b s t, proj a = some b → ok a s → R s t → R (step a s) (step' b t))
    (hnone : ∀ a s t, proj a = none → ok a s → R s t → R (step a s) t) :
    R (runActions step as s) (runActions step' (as.filterMap proj) t) := by
  induction as generalizing s t with
  | nil => exact hR
  | cons a as ih =>
    rw [List.filterMap_cons]
    cases hproj : proj a with
    | none => exact ih h.2 (hnone a s t hproj h.1 hR)
    | some b => exact ih h.2 (hsome a b s t hproj h.1 hR)

/-! ## Two systems side by side -/

/-- Two systems that perform the same actions. -/
def pairStep {τ : Type} (f : α → τ → τ) (step : α → σ → σ) (a : α) (p : τ × σ) : τ × σ :=
  (f a p.1, step a p.2)

section

variable {τ : Type} (f : α → τ → τ) (step : α → σ → σ)

lemma runActions_pairStep (as : List α) (t : τ) (s : σ) :
    runActions (pairStep f step) as (t, s) = (runActions f as t, runActions step as s) := by
  induction as generalizing t s with
  | nil => rfl
  | cons a as ih => exact ih (f a t) (step a s)

/-- A predicate of the first system along the run of both. -/
lemma along_pairStep_fst {ok : α → τ → Prop} (as : List α) (t : τ) (s : σ) :
    Along (pairStep f step) (fun a p => ok a p.1) as (t, s) ↔ Along f ok as t := by
  induction as generalizing t s with
  | nil => rfl
  | cons a as ih => exact and_congr_right fun _ => ih (f a t) (step a s)

/-- A predicate of the second system along the run of both. -/
lemma along_pairStep_snd {ok : α → σ → Prop} (as : List α) (t : τ) (s : σ) :
    Along (pairStep f step) (fun a p => ok a p.2) as (t, s) ↔ Along step ok as s := by
  induction as generalizing t s with
  | nil => rfl
  | cons a as ih => exact and_congr_right fun _ => ih (f a t) (step a s)

end

end VVBright
