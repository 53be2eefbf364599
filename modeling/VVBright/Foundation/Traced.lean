import Mathlib.Tactic

/-!
# Stateful computations with a trace of their accesses

A `Traced σ ι α` computation runs on a state `σ`, returns a value of type `α` and records every
access it makes to an addressable store: the address (of type `ι`) together with the state at the
moment of the access.  `eval`, `exec` and `accesses` are the three components of a run, and
`Traced.AccessesIn P` says that every access of a run satisfies `P` in the state it is made in.

`forLoop` and `searchLoop` are the two loop shapes of imperative code: a counting loop, and a
counting loop left by an early return.  Each comes with an invariant rule; the rules are the only
way the loops are reasoned about.  There are the same rules for the computations of a list,
performed one after the other.
-/

namespace VVBright

variable {σ ι α β ρ : Type}

/-- One access to the store: the address, and the state in which the access is made. -/
structure Access (σ ι : Type) where
  /-- The state at the moment of the access. -/
  before : σ
  /-- The address accessed. -/
  addr : ι

/-- The outcome of a run: the value returned, the final state and the accesses in order. -/
structure Outcome (σ ι α : Type) where
  /-- The value returned. -/
  val : α
  /-- The final state. -/
  state : σ
  /-- The accesses made, first one first. -/
  accesses : List (Access σ ι)

/-- A stateful computation that records its accesses. -/
def Traced (σ ι α : Type) : Type := σ → Outcome σ ι α

namespace Traced

/-- The value a computation returns. -/
def eval (m : Traced σ ι α) (s : σ) : α := (m s).val

/-- The state a computation ends in. -/
def exec (m : Traced σ ι α) (s : σ) : σ := (m s).state

/-- The accesses a computation makes. -/
def accesses (m : Traced σ ι α) (s : σ) : List (Access σ ι) := (m s).accesses

instance : Monad (Traced σ ι) where
  pure a := fun s => ⟨a, s, []⟩
  bind m f := fun s =>
    let o := m s
    let p := f o.val o.state
    ⟨p.val, p.state, o.accesses ++ p.accesses⟩

/-- Record an access at the address `a`. -/
def touch (a : ι) : Traced σ ι Unit := fun s => ⟨(), s, [⟨s, a⟩]⟩

/-- Read a component of the state that is not part of the store. -/
def gets (f : σ → α) : Traced σ ι α := fun s => ⟨f s, s, []⟩

/-- Change the state. -/
def modify (f : σ → σ) : Traced σ ι Unit := fun s => ⟨(), f s, []⟩

/-! ## The three components of a run -/

@[simp] lemma eval_pure (a : α) (s : σ) : eval (pure a : Traced σ ι α) s = a := rfl

@[simp] lemma exec_pure (a : α) (s : σ) : exec (pure a : Traced σ ι α) s = s := rfl

@[simp] lemma accesses_pure (a : α) (s : σ) : accesses (pure a : Traced σ ι α) s = [] := rfl

@[simp] lemma eval_bind (m : Traced σ ι α) (f : α → Traced σ ι β) (s : σ) :
    eval (m >>= f) s = eval (f (m.eval s)) (m.exec s) := rfl

@[simp] lemma exec_bind (m : Traced σ ι α) (f : α → Traced σ ι β) (s : σ) :
    exec (m >>= f) s = exec (f (m.eval s)) (m.exec s) := rfl

@[simp] lemma accesses_bind (m : Traced σ ι α) (f : α → Traced σ ι β) (s : σ) :
    accesses (m >>= f) s = m.accesses s ++ accesses (f (m.eval s)) (m.exec s) := rfl

@[simp] lemma exec_touch (a : ι) (s : σ) : exec (touch a : Traced σ ι Unit) s = s := rfl

@[simp] lemma accesses_touch (a : ι) (s : σ) :
    accesses (touch a : Traced σ ι Unit) s = [⟨s, a⟩] := rfl

@[simp] lemma eval_gets (f : σ → α) (s : σ) : eval (gets f : Traced σ ι α) s = f s := rfl

@[simp] lemma exec_gets (f : σ → α) (s : σ) : exec (gets f : Traced σ ι α) s = s := rfl

@[simp] lemma accesses_gets (f : σ → α) (s : σ) : accesses (gets f : Traced σ ι α) s = [] := rfl

@[simp] lemma exec_modify (f : σ → σ) (s : σ) : exec (modify f : Traced σ ι Unit) s = f s := rfl

@[simp] lemma accesses_modify (f : σ → σ) (s : σ) :
    accesses (modify f : Traced σ ι Unit) s = [] := rfl

/-! ## Access predicates -/

/-- Every access of the run from `s` satisfies `P` in the state it is made in. -/
def AccessesIn (P : σ → ι → Prop) (m : Traced σ ι α) (s : σ) : Prop :=
  ∀ e ∈ m.accesses s, P e.before e.addr

/-- A pure computation makes no access. -/
@[simp] lemma accessesIn_pure (P : σ → ι → Prop) (a : α) (s : σ) :
    AccessesIn P (pure a : Traced σ ι α) s := by
  simp [AccessesIn]

/-- The accesses of a sequence are those of its two parts. -/
@[simp] lemma accessesIn_bind (P : σ → ι → Prop) (m : Traced σ ι α) (f : α → Traced σ ι β) (s : σ) :
    AccessesIn P (m >>= f) s ↔
      AccessesIn P m s ∧ AccessesIn P (f (m.eval s)) (m.exec s) := by
  simp [AccessesIn, List.mem_append, or_imp, forall_and]

/-- Recording an access satisfies `P` exactly when `P` holds of it. -/
@[simp] lemma accessesIn_touch (P : σ → ι → Prop) (a : ι) (s : σ) :
    AccessesIn P (touch a : Traced σ ι Unit) s ↔ P s a := by
  simp [AccessesIn]

/-- Reading a state component makes no access. -/
@[simp] lemma accessesIn_gets (P : σ → ι → Prop) (f : σ → α) (s : σ) :
    AccessesIn P (gets f : Traced σ ι α) s := by
  simp [AccessesIn]

/-- Changing the state makes no access. -/
@[simp] lemma accessesIn_modify (P : σ → ι → Prop) (f : σ → σ) (s : σ) :
    AccessesIn P (modify f : Traced σ ι Unit) s := by
  simp [AccessesIn]

end Traced

/-! ## Counting loops -/

open Traced

/-- `for (i = 0; i < n; i++) body i`. -/
def forLoop (n : ℕ) (body : ℕ → Traced σ ι Unit) : Traced σ ι Unit :=
  match n with
  | 0 => pure ()
  | n + 1 => do
    forLoop n body
    body n

@[simp] lemma exec_forLoop_zero (body : ℕ → Traced σ ι Unit) (s : σ) :
    (forLoop 0 body).exec s = s := rfl

/-- The last round of a counting loop runs in the state the earlier rounds leave. -/
lemma exec_forLoop_succ (n : ℕ) (body : ℕ → Traced σ ι Unit) (s : σ) :
    (forLoop (n + 1) body).exec s = (body n).exec ((forLoop n body).exec s) := rfl

/-- A counting loop of `m + n` rounds is one of `m` rounds followed by `n` shifted rounds. -/
lemma exec_forLoop_add (m n : ℕ) (body : ℕ → Traced σ ι Unit) (s : σ) :
    (forLoop (m + n) body).exec s =
      (forLoop n fun i => body (m + i)).exec ((forLoop m body).exec s) := by
  induction n with
  | zero => rfl
  | succ n ih => rw [← Nat.add_assoc, exec_forLoop_succ, exec_forLoop_succ, ih]

/-- Invariant rule for counting loops: what holds before the first round and is carried from
round to round holds at the end. -/
theorem forLoop_invariant {n : ℕ} {body : ℕ → Traced σ ι Unit} (Inv : ℕ → σ → Prop) {s : σ}
    (h0 : Inv 0 s) (hstep : ∀ i < n, ∀ t, Inv i t → Inv (i + 1) ((body i).exec t)) :
    Inv n ((forLoop n body).exec s) := by
  induction n with
  | zero => exact h0
  | succ n ih =>
    rw [exec_forLoop_succ]
    exact hstep n (Nat.lt_succ_self n) _ (ih fun i hi => hstep i (Nat.lt_succ_of_lt hi))

/-- Access rule for counting loops: if every round started from the invariant makes only accesses
in `P`, so does the loop. -/
theorem forLoop_accessesIn {n : ℕ} {body : ℕ → Traced σ ι Unit} {P : σ → ι → Prop}
    (Inv : ℕ → σ → Prop) {s : σ} (h0 : Inv 0 s)
    (hstep : ∀ i < n, ∀ t, Inv i t → Inv (i + 1) ((body i).exec t))
    (hacc : ∀ i < n, ∀ t, Inv i t → AccessesIn P (body i) t) :
    AccessesIn P (forLoop n body) s := by
  induction n with
  | zero => exact accessesIn_pure P () s
  | succ n ih =>
    have hinv : Inv n ((forLoop n body).exec s) :=
      forLoop_invariant Inv h0 fun i hi => hstep i (Nat.lt_succ_of_lt hi)
    refine (accessesIn_bind P _ _ s).mpr ⟨?_, hacc n (Nat.lt_succ_self n) _ hinv⟩
    exact ih (fun i hi => hstep i (Nat.lt_succ_of_lt hi))
      (fun i hi => hacc i (Nat.lt_succ_of_lt hi))

/-- Access rule for counting loops whose rounds make only accesses in `P` from every state. -/
theorem forLoop_accessesIn_of_forall {n : ℕ} {body : ℕ → Traced σ ι Unit} {P : σ → ι → Prop}
    (hacc : ∀ i < n, ∀ t, AccessesIn P (body i) t) (s : σ) : AccessesIn P (forLoop n body) s :=
  forLoop_accessesIn (fun _ _ => True) trivial (fun _ _ _ _ => trivial) fun i hi t _ => hacc i hi t

/-- Exact access rule for counting loops: if it does not depend on the state whether a round makes
only accesses in `P`, the loop does exactly when every round does. -/
theorem forLoop_accessesIn_iff {n : ℕ} {body : ℕ → Traced σ ι Unit} {P : σ → ι → Prop}
    {Q : ℕ → Prop} (Inv : σ → Prop) {s : σ} (h0 : Inv s)
    (hstep : ∀ i < n, ∀ t, Inv t → Inv ((body i).exec t))
    (hacc : ∀ i < n, ∀ t, Inv t → (AccessesIn P (body i) t ↔ Q i)) :
    AccessesIn P (forLoop n body) s ↔ ∀ i < n, Q i := by
  induction n with
  | zero => exact iff_of_true (accessesIn_pure P () s) fun i hi => absurd hi (Nat.not_lt_zero i)
  | succ n ih =>
    have hinv : Inv ((forLoop n body).exec s) :=
      forLoop_invariant (fun _ => Inv) h0 fun i hi => hstep i (Nat.lt_succ_of_lt hi)
    have hrounds := ih (fun i hi => hstep i (Nat.lt_succ_of_lt hi))
      fun i hi => hacc i (Nat.lt_succ_of_lt hi)
    have hlast := hacc n (Nat.lt_succ_self n) _ hinv
    rw [Nat.forall_lt_succ_right, ← hrounds, ← hlast]
    exact accessesIn_bind P _ _ s

/-! ## Lists of computations -/

section ListOfComputations

variable {as : List α} {body : α → Traced σ ι Unit} {s : σ}

/-- Invariant rule for a list of computations performed one after the other. -/
theorem forM_invariant (Inv : σ → Prop) (h0 : Inv s)
    (hstep : ∀ a ∈ as, ∀ t, Inv t → Inv ((body a).exec t)) : Inv ((as.forM body).exec s) := by
  induction as generalizing s with
  | nil => exact h0
  | cons a as ih =>
    rw [List.forall_mem_cons] at hstep
    exact ih (hstep.1 s h0) hstep.2

/-- Access rule for a list of computations: if each of them, started from the invariant, makes only
accesses in `P`, so does the list. -/
theorem forM_accessesIn {P : σ → ι → Prop} (Inv : σ → Prop) (h0 : Inv s)
    (hstep : ∀ a ∈ as, ∀ t, Inv t → Inv ((body a).exec t))
    (hacc : ∀ a ∈ as, ∀ t, Inv t → AccessesIn P (body a) t) :
    AccessesIn P (as.forM body) s := by
  induction as generalizing s with
  | nil => exact accessesIn_pure P () s
  | cons a as ih =>
    rw [List.forall_mem_cons] at hstep hacc
    refine (accessesIn_bind P _ _ s).mpr ⟨hacc.1 s h0, ?_⟩
    exact ih (hstep.1 s h0) hstep.2 hacc.2

/-- Relational rule for a list of computations: a relation between two states that each of them
keeps is kept by the list. -/
theorem forM_relation (R : σ → σ → Prop) {t : σ} (h0 : R s t)
    (hstep : ∀ a ∈ as, ∀ s t, R s t → R ((body a).exec s) ((body a).exec t)) :
    R ((as.forM body).exec s) ((as.forM body).exec t) := by
  induction as generalizing s t with
  | nil => exact h0
  | cons a as ih =>
    rw [List.forall_mem_cons] at hstep
    exact ih (hstep.1 s t h0) hstep.2

end ListOfComputations

/-! ## Searching loops -/

/-- `for (j = i; j < i + fuel; j++) if (body j returns) return`. -/
def searchLoop (body : ℕ → Traced σ ι (Option ρ)) (i : ℕ) : ℕ → Traced σ ι (Option ρ)
  | 0 => pure none
  | fuel + 1 => do
    match ← body i with
    | some r => pure (some r)
    | none => searchLoop body (i + 1) fuel

section SearchLoop

variable {body : ℕ → Traced σ ι (Option ρ)} {s : σ} {i fuel : ℕ}

/-- A search whose rounds leave the state alone leaves the state alone. -/
lemma exec_searchLoop (hs : ∀ j, (body j).exec s = s) :
    (searchLoop body i fuel).exec s = s := by
  induction fuel generalizing i with
  | zero => rfl
  | succ fuel ih =>
    rw [searchLoop, exec_bind, hs]
    cases (body i).eval s with
    | none => exact ih
    | some r => rfl

/-- A search in which no round returns finds nothing. -/
lemma eval_searchLoop_eq_none (hs : ∀ j, (body j).exec s = s)
    (hnone : ∀ j, i ≤ j → j < i + fuel → (body j).eval s = none) :
    (searchLoop body i fuel).eval s = none := by
  induction fuel generalizing i with
  | zero => rfl
  | succ fuel ih =>
    rw [searchLoop, eval_bind, hs, hnone i le_rfl (by omega)]
    exact ih fun j hij hj => hnone j (by omega) (by omega)

/-- A search returns the value of the first round that returns. -/
lemma eval_searchLoop_eq_some (hs : ∀ j, (body j).exec s = s) {j : ℕ} {r : ρ}
    (hij : i ≤ j) (hj : j < i + fuel) (hr : (body j).eval s = some r)
    (hnone : ∀ j', i ≤ j' → j' < j → (body j').eval s = none) :
    (searchLoop body i fuel).eval s = some r := by
  induction fuel generalizing i with
  | zero => omega
  | succ fuel ih =>
    rw [searchLoop, eval_bind, hs]
    rcases Nat.eq_or_lt_of_le hij with rfl | hlt
    · rw [hr]
      rfl
    · rw [hnone i le_rfl hlt]
      exact ih hlt (by omega) fun j' h1 h2 => hnone j' (by omega) h2

/-- The accesses of a search are accesses of its rounds. -/
lemma searchLoop_accessesIn {P : σ → ι → Prop} (hs : ∀ j, (body j).exec s = s)
    (hacc : ∀ j, i ≤ j → j < i + fuel → AccessesIn P (body j) s) :
    AccessesIn P (searchLoop body i fuel) s := by
  induction fuel generalizing i with
  | zero => exact accessesIn_pure P none s
  | succ fuel ih =>
    rw [searchLoop, accessesIn_bind, hs]
    refine ⟨hacc i le_rfl (by omega), ?_⟩
    cases (body i).eval s with
    | none => exact ih fun j hij hj => hacc j (by omega) (by omega)
    | some r => exact accessesIn_pure P (some r) s

end SearchLoop

end VVBright
