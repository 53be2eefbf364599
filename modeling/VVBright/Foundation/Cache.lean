import Mathlib.Tactic

/-!
# A cache in front of a table

A table is a partial function `table : α → Option β`, and a cache keeps some of its values under the
tags of their arguments.  `lookup` prefers the cache, so its results are those of the table exactly
when every cached value is the table's (`lookup_eq_iff_fresh`).  A value that is missing from the
table is not cached; hence a table that only gains values keeps a cache fresh
(`Fresh.of_extends`).
-/

namespace VVBright

namespace Cache

variable {α κ β : Type} (tag : α → κ)

/-- The cached value, and the value of the table if there is none. -/
def lookup (cache : κ → Option β) (table : α → Option β) (a : α) : Option β :=
  (cache (tag a)).or (table a)

/-- Keep the value of the table at `a`, if there is one. -/
def fill [DecidableEq κ] (table : α → Option β) (a : α) (cache : κ → Option β) : κ → Option β :=
  match table a with
  | some b => Function.update cache (tag a) (some b)
  | none => cache

/-- Forget the value kept under a tag. -/
def evict [DecidableEq κ] (k : κ) (cache : κ → Option β) : κ → Option β :=
  Function.update cache k none

/-- Every cached value is the table's. -/
def Fresh (cache : κ → Option β) (table : α → Option β) : Prop :=
  ∀ a b, cache (tag a) = some b → table a = some b

variable {tag} {cache : κ → Option β} {table : α → Option β}

lemma lookup_eq_iff_fresh :
    (∀ a, lookup tag cache table a = table a) ↔ Fresh tag cache table := by
  constructor
  · intro h a b hb
    rw [← h a, lookup, hb, Option.some_or]
  · intro h a
    rw [lookup]
    cases hcache : cache (tag a) with
    | none => rw [Option.none_or]
    | some b => rw [Option.some_or, h a b hcache]

lemma fresh_empty : Fresh tag (fun _ => none) table := fun _ _ h => nomatch h

/-- After a fill the lookup finds the value. -/
lemma fill_of_eq_some [DecidableEq κ] {a : α} {b : β} (h : table a = some b) :
    fill tag table a cache (tag a) = some b := by
  rw [fill, h]
  exact Function.update_self _ _ _

lemma Fresh.fill [DecidableEq κ] (h : Fresh tag cache table)
    (htag : ∀ a a', tag a = tag a' → table a = table a') (a : α) :
    Fresh tag (fill tag table a cache) table := by
  cases htable : table a with
  | none =>
    rw [Cache.fill, htable]
    exact h
  | some b =>
    rw [Cache.fill, htable]
    intro a' b' hb
    change Function.update cache (tag a) (some b) (tag a') = some b' at hb
    by_cases heq : tag a' = tag a
    · rw [heq, Function.update_self] at hb
      rw [htag a' a heq, htable, hb]
    · rw [Function.update_of_ne heq] at hb
      exact h a' b' hb

lemma Fresh.evict [DecidableEq κ] (h : Fresh tag cache table) (k : κ) :
    Fresh tag (evict k cache) table := by
  intro a b hb
  rw [Cache.evict] at hb
  by_cases heq : tag a = k
  · rw [heq, Function.update_self] at hb
    exact absurd hb.symm (Option.some_ne_none b)
  · rw [Function.update_of_ne heq] at hb
    exact h a b hb

/-- A table that keeps its values keeps the cache fresh. -/
lemma Fresh.of_extends (h : Fresh tag cache table) {table' : α → Option β}
    (hkeep : ∀ a, table a = none ∨ table' a = table a) : Fresh tag cache table' := by
  intro a b hb
  have hvalue := h a b hb
  rcases hkeep a with hnone | hsame
  · exact absurd (hvalue.symm.trans hnone) (Option.some_ne_none b)
  · rw [hsame, hvalue]

end Cache

end VVBright
