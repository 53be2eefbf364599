import VVBright.Foundation.Runs

/-!
# The painter's algorithm

Shapes are painted on a canvas one after the other, each over what is there.  A position then shows
the colour of the last shape that covers it, or what the canvas showed there at first when no shape
does.
-/

namespace VVBright

variable {P C ι : Type}

/-- The canvas after the shape `i` has been painted on it. -/
def paint (covers : ι → P → Prop) [∀ i p, Decidable (covers i p)] (colour : ι → C) (i : ι)
    (canvas : P → C) : P → C :=
  fun p => if covers i p then colour i else canvas p

section

variable {covers : ι → P → Prop} [∀ i p, Decidable (covers i p)] {colour : ι → C} {p : P}

/-- Shapes that do not cover a position leave it alone. -/
theorem paint_run_of_not_covers {shapes : List ι} (h : ∀ i ∈ shapes, ¬ covers i p)
    (canvas : P → C) : runActions (paint covers colour) shapes canvas p = canvas p := by
  induction shapes generalizing canvas with
  | nil => rfl
  | cons i shapes ih =>
    rw [List.forall_mem_cons] at h
    rw [runActions, ih h.2, paint, if_neg h.1]

/-- A position shows the colour of the last shape that covers it. -/
theorem paint_run_of_last {before after : List ι} {i : ι} (hcovers : covers i p)
    (hafter : ∀ j ∈ after, ¬ covers j p) (canvas : P → C) :
    runActions (paint covers colour) (before ++ i :: after) canvas p = colour i := by
  rw [runActions_append, runActions, paint_run_of_not_covers hafter, paint, if_pos hcovers]

end

end VVBright
