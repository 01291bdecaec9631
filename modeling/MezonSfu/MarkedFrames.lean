import Mathlib.Data.List.Basic
import Mathlib.Tactic

/-!
Lists of marked items. Some items are marked as the last one of their frame; a list that ends
with such an item can be cut off at the front of a longer one without cutting a frame.
-/

namespace MezonSfu.Frames

variable {α : Type*} {last : α → Bool} {l m : List α}

/-- The list ends with a marked item, or it is empty. -/
def AtEnd (last : α → Bool) (l : List α) : Prop := ∀ x ∈ l.getLast?, last x = true

lemma AtEnd.append (h : AtEnd last m) (hl : AtEnd last l) : AtEnd last (l ++ m) := by
  intro x hx
  rcases List.eq_nil_or_concat m with rfl | ⟨m', y, rfl⟩
  · rw [List.append_nil] at hx
    exact hl x hx
  · rw [List.concat_eq_append, ← List.append_assoc, List.getLast?_concat] at hx
    exact h x (by rw [List.concat_eq_append, List.getLast?_concat]; exact hx)

lemma AtEnd.of_append (h : AtEnd last (l ++ m)) : AtEnd last m := by
  intro x hx
  apply h
  rw [List.getLast?_append, hx]
  rfl

end MezonSfu.Frames
