import Mathlib.Data.Nat.Init
import Mathlib.Order.Nat

/-!
Runs of a deterministic step function, and the rule by which an invariant is carried along
them.

A run is the fold of a list of operations. `Along C s l` says that every operation of the
run `l` from `s` meets the condition `C` in the state in which it is taken.
-/

namespace MezonSfu.Runs

variable {σ α : Type*} (step : σ → α → σ)

/-- The state reached from `s` by the operations `l`. -/
def run (s : σ) (l : List α) : σ := l.foldl step s

@[simp] lemma run_nil (s : σ) : run step s [] = s := rfl
@[simp] lemma run_cons (s : σ) (a : α) (l : List α) :
    run step s (a :: l) = run step (step s a) l := rfl
lemma run_append (s : σ) (l m : List α) : run step s (l ++ m) = run step (run step s l) m := by
  simp [run, List.foldl_append]
lemma run_concat (s : σ) (l : List α) (a : α) : run step s (l ++ [a]) = step (run step s l) a := by
  simp [run, List.foldl_append]

/-- Every operation of the run meets `C` in the state in which it is taken. -/
def Along (C : σ → α → Prop) : σ → List α → Prop
  | _, [] => True
  | s, a :: l => C s a ∧ Along C (step s a) l

instance Along.decidable (C : σ → α → Prop) [∀ s a, Decidable (C s a)] :
    ∀ (s : σ) (l : List α), Decidable (Along step C s l)
  | _, [] => isTrue trivial
  | s, a :: l => @instDecidableAnd _ _ _ (Along.decidable C (step s a) l)

lemma along_append (C : σ → α → Prop) (s : σ) (l m : List α) :
    Along step C s (l ++ m) ↔ Along step C s l ∧ Along step C (run step s l) m := by
  induction l generalizing s with
  | nil => simp [Along]
  | cons a l ih => simp [Along, ih, and_assoc]

variable {I : σ → Prop} {s : σ}

/-- **Invariant rule**, with a condition on the operations. -/
theorem run_inv_along {C : σ → α → Prop} (hstep : ∀ s a, I s → C s a → I (step s a))
    (h : I s) {l : List α} (hC : Along step C s l) : I (run step s l) := by
  induction l generalizing s with
  | nil => exact h
  | cons a l ih => exact ih (hstep s a h hC.1) hC.2

/-- **Invariant rule**. -/
theorem run_inv (hstep : ∀ s a, I s → I (step s a)) (h : I s) (l : List α) : I (run step s l) := by
  induction l generalizing s with
  | nil => exact h
  | cons a l ih => exact ih (hstep s a h)

lemma le_run {f : σ → ℕ} (hstep : ∀ s a, f s ≤ f (step s a)) (s : σ) (l : List α) :
    f s ≤ f (run step s l) :=
  run_inv step (I := fun t => f s ≤ f t) (fun t a h => h.trans (hstep t a)) le_rfl l

/-- **Invariant rule under a budget**: the steps may use that the resource `f`, which no step
lowers, stays below a bound that the end of the run meets. -/
theorem run_inv_budget {f : σ → ℕ} {b : ℕ} (hmono : ∀ s a, f s ≤ f (step s a))
    (hstep : ∀ s a, I s → f (step s a) < b → I (step s a)) (h : I s) {l : List α}
    (hb : f (run step s l) < b) : I (run step s l) := by
  induction l generalizing s with
  | nil => exact h
  | cons a l ih =>
    have hle : f (step s a) ≤ f (run step (step s a) l) := le_run step hmono _ _
    exact ih (hstep s a h (lt_of_le_of_lt hle hb)) hb

/-- **Simulation rule**: where every step is matched by some operations of another machine, so is
every run. -/
theorem run_simulates {τ β : Type*} {step' : τ → β → τ} {R : τ → σ → Prop}
    (hstep : ∀ t s a, R t s → ∃ m, R (run step' t m) (step s a)) {t : τ} (h : R t s)
    (l : List α) : ∃ m, R (run step' t m) (run step s l) := by
  induction l generalizing s t with
  | nil => exact ⟨[], h⟩
  | cons a l ih =>
    obtain ⟨m, hm⟩ := hstep t s a h
    obtain ⟨n, hn⟩ := ih hm
    exact ⟨m ++ n, by rwa [run_append]⟩

end MezonSfu.Runs
