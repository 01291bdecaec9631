import Mathlib.Data.List.Nodup
import Mathlib.Data.List.Range
import Mathlib.Logic.Function.Basic

/-!
Lists of cells that are linked through an array of successors.

`Links next stop i l` says that `l` are the cells met from `i` on until the end mark `stop`.
Such a list is finite, so it never meets a cell twice.
-/

namespace MezonSfu.LinkedCells

open List

/-- `l` are the cells from `i` on, up to the end mark. -/
def Links (next : ℕ → ℕ) (stop : ℕ) : ℕ → List ℕ → Prop
  | i, [] => i = stop
  | i, a :: l => i = a ∧ a ≠ stop ∧ Links next stop (next a) l

/-- The cells from `i` on, at most `n` of them. -/
def walk (next : ℕ → ℕ) (stop : ℕ) : ℕ → ℕ → List ℕ
  | 0, _ => []
  | n + 1, i => if i = stop then [] else i :: walk next stop n (next i)

variable {next : ℕ → ℕ} {stop i j : ℕ} {l l' : List ℕ}

lemma Links.walk_eq (h : Links next stop i l) {n : ℕ} (hn : l.length ≤ n) :
    walk next stop n i = l := by
  induction l generalizing i n with
  | nil =>
    cases n with
    | zero => rfl
    | succ n => exact if_pos h
  | cons a l ih =>
    obtain ⟨rfl, hne, hrest⟩ := h
    cases n with
    | zero => simp at hn
    | succ n =>
      unfold walk
      rw [if_neg hne, ih hrest (by simpa using hn)]

lemma Links.unique (h : Links next stop i l) (h' : Links next stop i l') : l = l' := by
  have h1 := h.walk_eq (Nat.le_max_left l.length l'.length)
  have h2 := h'.walk_eq (Nat.le_max_right l.length l'.length)
  exact h1.symm.trans h2

lemma Links.drop_front {a : ℕ} {u v : List ℕ} (h : Links next stop i (u ++ a :: v)) :
    Links next stop a (a :: v) := by
  induction u generalizing i with
  | nil =>
    obtain ⟨rfl, hrest⟩ := h
    exact ⟨rfl, hrest⟩
  | cons b u ih => exact ih h.2.2

lemma Links.nodup (h : Links next stop i l) : l.Nodup := by
  induction l generalizing i with
  | nil => exact nodup_nil
  | cons a l ih =>
    obtain ⟨rfl, hne, hrest⟩ := h
    refine nodup_cons.2 ⟨?_, ih hrest⟩
    intro hmem
    obtain ⟨u, v, rfl⟩ := append_of_mem hmem
    -- the list from the cell on is both the whole list and its own tail
    have heq : i :: v = i :: (u ++ i :: v) := hrest.drop_front.unique ⟨rfl, hne, hrest⟩
    have hlen := congrArg List.length heq
    simp only [length_cons, length_append] at hlen
    omega

lemma Links.update (h : Links next stop i l) (hj : j ∉ l) (v : ℕ) :
    Links (Function.update next j v) stop i l := by
  induction l generalizing i with
  | nil => exact h
  | cons a l ih =>
    obtain ⟨rfl, hne, hrest⟩ := h
    rw [mem_cons, not_or] at hj
    refine ⟨rfl, hne, ?_⟩
    rw [Function.update_of_ne (Ne.symm hj.1)]
    exact ih hrest hj.2

lemma links_range' {n : ℕ} (hn : n ≤ stop)
    (hnext : ∀ a < n, next a = if a + 1 < n then a + 1 else stop) (k m : ℕ) (hm : k + m + 1 = n) :
    Links next stop k (List.range' k (m + 1)) := by
  induction m generalizing k with
  | zero =>
    refine ⟨rfl, by omega, ?_⟩
    change next k = stop
    rw [hnext k (by omega), if_neg (by omega)]
  | succ m ih =>
    refine ⟨rfl, by omega, ?_⟩
    rw [hnext k (by omega), if_pos (by omega)]
    exact ih (k + 1) (by omega)

end MezonSfu.LinkedCells
