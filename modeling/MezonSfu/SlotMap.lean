import Mathlib.Data.Finset.Card
import Mathlib.Logic.Function.Basic
import Mathlib.Tactic

/-!
Arrays of optional cells whose elements carry a key: read, find the cell of a key, find an empty
cell, replace a cell.

In a well-formed table a key is in one cell at most. The table then stands for a partial
function of the keys, its `view`, and replacing a cell changes the view at one key.
-/

namespace MezonSfu

open Function List Option

lemma update_cases {ι α : Type*} [DecidableEq ι] {f : ι → α} {i j : ι} {a b : α}
    (h : update f i a j = b) : j = i ∧ a = b ∨ j ≠ i ∧ f j = b := by
  rwa [update_apply, ite_eq_iff] at h

/-- A table of `n` cells; an empty cell holds `none`. -/
structure SlotMap (n : ℕ) (V : Type*) where
  generation : ℕ
  cells : ℕ → Option V

namespace SlotMap

variable {n : ℕ} {V K A : Type*}

def empty : SlotMap n V := ⟨0, fun _ => none⟩

section

variable (m : SlotMap n V)

def set (i : ℕ) (v : Option V) : SlotMap n V := { m with cells := update m.cells i v }

def copySet (i : ℕ) (v : Option V) : SlotMap n V := ⟨m.generation + 1, update m.cells i v⟩

def firstEmpty : Option ℕ := (List.range n).find? fun i => (m.cells i).isNone

def entries : List (ℕ × V) := (List.range n).filterMap fun i => (m.cells i).map fun v => (i, v)

end

/-- Only the first `n` cells are used, and a key is in one of them at most. -/
structure WF (key : V → K) (m : SlotMap n V) : Prop where
  lt : ∀ i v, m.cells i = some v → i < n
  inj : ∀ i j v w, m.cells i = some v → m.cells j = some w → key v = key w → i = j

variable {key : V → K} {val : V → A} {m m' : SlotMap n V} {i j : ℕ} {k : K} {v w : V} {a : A}

lemma wf_empty : WF key (empty : SlotMap n V) where
  lt := by
    intro i v h
    cases h
  inj := by
    intro i j v w h
    cases h

lemma mem_entries : (i, v) ∈ m.entries ↔ i < n ∧ m.cells i = some v := by
  unfold entries
  simp only [mem_filterMap, mem_range, map_eq_some_iff, Prod.mk.injEq]
  constructor
  · rintro ⟨j, hj, w, hw, rfl, rfl⟩
    exact ⟨hj, hw⟩
  · rintro ⟨hi, hv⟩
    exact ⟨i, hi, v, hv, rfl, rfl⟩

lemma pairwise_entries : m.entries.Pairwise fun a b => a.1 < b.1 := by
  unfold entries
  rw [pairwise_filterMap]
  refine pairwise_lt_range.imp ?_
  intro i j hij a ha b hb
  obtain ⟨v, -, rfl⟩ := map_eq_some_iff.1 ha
  obtain ⟨w, -, rfl⟩ := map_eq_some_iff.1 hb
  exact hij

lemma firstEmpty_spec (h : m.firstEmpty = some i) : i < n ∧ m.cells i = none := by
  have hmem := mem_range.1 (mem_of_find?_eq_some h)
  have hnone := List.find?_some h
  exact ⟨hmem, by simpa using hnone⟩

lemma firstEmpty_none (h : m.firstEmpty = none) (hi : i < n) : ∃ v, m.cells i = some v := by
  have hnot := List.find?_eq_none.1 h i (mem_range.2 hi)
  cases hc : m.cells i with
  | none => simp [hc] at hnot
  | some v => exact ⟨v, rfl⟩

/-- An element may be put into an empty cell if its key is nowhere, and in place of the element
of its key. -/
def Fits (key : V → K) (m : SlotMap n V) (i : ℕ) (v : V) : Prop :=
  (∀ w, m.cells i = some w → key w = key v) ∧ ∀ j w, m.cells j = some w → key w = key v → j = i

lemma WF.put (h : WF key m) (hi : i < n) (hfits : Fits key m i v)
    (hm : m'.cells = update m.cells i (some v)) : WF key m' := by
  constructor
  · intro j w hw
    rw [hm] at hw
    by_cases hji : j = i
    · rw [hji]
      exact hi
    · rw [update_of_ne hji] at hw
      exact h.lt j w hw
  · intro j l w x hw hx hk
    rw [hm] at hw hx
    obtain ⟨rfl, ⟨⟩⟩ | ⟨-, hj⟩ := update_cases hw <;> obtain ⟨rfl, ⟨⟩⟩ | ⟨-, hl⟩ := update_cases hx
    · rfl
    · exact (hfits.2 l x hl hk.symm).symm
    · exact hfits.2 j w hj hk
    · exact h.inj j l w x hj hl hk

lemma WF.erase (h : WF key m) (hm : m'.cells = update m.cells i none) : WF key m' := by
  have hold : ∀ j w, m'.cells j = some w → m.cells j = some w := by
    intro j w hw
    rw [hm] at hw
    exact ((update_cases hw).resolve_left nofun).2
  exact ⟨fun j w hw => h.lt j w (hold j w hw),
    fun j l w x hw hx => h.inj j l w x (hold j w hw) (hold l x hx)⟩

/-- A table whose keys are taken from fewer than `n` places has an empty cell. -/
lemma WF.exists_empty (h : WF key m) (place : K → ℕ) (s : Finset ℕ) (hcard : s.card < n)
    (hplace : ∀ i v, m.cells i = some v → place (key v) ∈ s)
    (hinj : ∀ i j v w, m.cells i = some v → m.cells j = some w →
      place (key v) = place (key w) → key v = key w) : ∃ i, m.firstEmpty = some i := by
  cases hfree : m.firstEmpty with
  | some i => exact ⟨i, rfl⟩
  | none =>
    exfalso
    obtain ⟨v, -⟩ := firstEmpty_none hfree (Nat.zero_lt_of_lt hcard)
    have : Nonempty V := ⟨v⟩
    have hfull : ∀ i ∈ Finset.range n, ∃ v, m.cells i = some v := by
      intro i hi
      exact firstEmpty_none hfree (Finset.mem_range.1 hi)
    choose! f hf using hfull
    have hle : (Finset.range n).card ≤ s.card := by
      apply Finset.card_le_card_of_injOn fun i => place (key (f i))
      · intro i hi
        exact hplace i (f i) (hf i hi)
      · intro i hi j hj hij
        have hkey := hinj i j (f i) (f j) (hf i hi) (hf j hj) hij
        exact h.inj i j (f i) (f j) (hf i hi) (hf j hj) hkey
    rw [Finset.card_range] at hle
    omega

/-! ### The view -/

variable [DecidableEq K]

/-- The first cell with an element of key `k`. -/
def find (key : V → K) (m : SlotMap n V) (k : K) : Option ℕ :=
  (List.range n).find? fun i => (m.cells i).any fun v => key v = k

/-- What the element of a key says, as a partial function of the keys. -/
def view (key : V → K) (val : V → A) (m : SlotMap n V) (k : K) : Option A :=
  (m.find key k).bind fun i => (m.cells i).map val

lemma find_spec (h : m.find key k = some i) : i < n ∧ ∃ v, m.cells i = some v ∧ key v = k := by
  have hmem := mem_range.1 (mem_of_find?_eq_some h)
  have hany := List.find?_some h
  simp only [Option.any_eq_true, decide_eq_true_eq] at hany
  exact ⟨hmem, hany⟩

lemma find_none (h : m.find key k = none) (hi : i < n) (hv : m.cells i = some v) : key v ≠ k := by
  intro hk
  have hnot := List.find?_eq_none.1 h i (mem_range.2 hi)
  rw [hv] at hnot
  simp [hk] at hnot

lemma WF.find_of_cells (h : WF key m) (hv : m.cells i = some v) : m.find key (key v) = some i := by
  cases hf : m.find key (key v) with
  | none => exact absurd rfl (find_none hf (h.lt i v hv) hv)
  | some j =>
    obtain ⟨-, w, hw, hkw⟩ := find_spec hf
    rw [h.inj j i w v hw hv hkw]

lemma WF.view_of_cells (h : WF key m) (hv : m.cells i = some v) :
    m.view key val (key v) = some (val v) := by
  unfold view
  rw [h.find_of_cells hv, bind_some, hv, map_some]

lemma view_eq_none : m.view key val k = none ↔ m.find key k = none := by
  unfold view
  cases hf : m.find key k with
  | none => simp
  | some i =>
    obtain ⟨-, v, hv, -⟩ := find_spec hf
    simp [hv]

lemma cells_of_view (h : m.view key val k = some a) :
    ∃ i v, m.cells i = some v ∧ key v = k ∧ val v = a := by
  obtain ⟨i, hf, hi⟩ := bind_eq_some_iff.1 h
  obtain ⟨-, v, hv, hk⟩ := find_spec hf
  rw [hv, map_some] at hi
  exact ⟨i, v, hv, hk, Option.some.inj hi⟩

lemma WF.view_eq_some (h : WF key m) :
    m.view key val k = some a ↔ ∃ i v, m.cells i = some v ∧ key v = k ∧ val v = a := by
  constructor
  · exact cells_of_view
  · rintro ⟨i, v, hv, rfl, rfl⟩
    exact h.view_of_cells hv

lemma find_empty : (empty : SlotMap n V).find key k = none := by
  cases hf : (empty : SlotMap n V).find key k with
  | none => rfl
  | some i =>
    obtain ⟨-, v, hcell, -⟩ := find_spec hf
    cases hcell

lemma view_empty : (empty : SlotMap n V).view key val k = none := view_eq_none.2 find_empty

section

variable (h : WF key m)

include h

lemma WF.fits_found (hf : m.find key k = some i) (hk : key v = k) : Fits key m i v := by
  obtain ⟨-, w, hw, hkw⟩ := find_spec hf
  constructor
  · intro w' hw'
    rw [hw] at hw'
    rw [← Option.some.inj hw', hkw, hk]
  · intro j w' hw' hk'
    exact h.inj j i w' w hw' hw (by rw [hk', hk, hkw])

lemma WF.fits_empty (hi : m.cells i = none) (hf : m.find key (key v) = none) : Fits key m i v := by
  constructor
  · intro w hw
    rw [hi] at hw
    cases hw
  · intro j w hw hk
    exact absurd hk (find_none hf (h.lt j w hw) hw)

/-- Replacing a cell is invisible at a key that neither its old nor its new element has. -/
lemma WF.view_replace {x : Option V} (h' : WF key m') (hm : m'.cells = update m.cells i x)
    (hold : ∀ w, m.cells i = some w → key w ≠ k) (hnew : ∀ w, x = some w → key w ≠ k) :
    m'.view key val k = m.view key val k := by
  apply Option.ext
  intro a
  rw [h'.view_eq_some, h.view_eq_some, hm]
  refine exists_congr fun j => exists_congr fun w => ?_
  by_cases hji : j = i
  · rw [hji, update_self]
    constructor
    · rintro ⟨hw, hkw, -⟩
      exact absurd hkw (hnew w hw)
    · rintro ⟨hw, hkw, -⟩
      exact absurd hkw (hold w hw)
  · rw [update_of_ne hji]

/-- **Putting an element** changes the view at its key. -/
lemma WF.view_put (hi : i < n) (hfits : Fits key m i v)
    (hm : m'.cells = update m.cells i (some v)) :
    m'.view key val = update (m.view key val) (key v) (some (val v)) := by
  have h' := h.put hi hfits hm
  funext k
  by_cases hk : k = key v
  · rw [hk, update_self, h'.view_of_cells (by rw [hm, update_self])]
  rw [update_of_ne hk]
  refine h.view_replace h' hm ?_ ?_
  · intro w hw hkw
    exact hk (by rw [← hkw, hfits.1 w hw])
  · rintro w ⟨⟩ hkw
    exact hk hkw.symm

/-- **Erasing an element** changes the view at its key. -/
lemma WF.view_erase (hv : m.cells i = some v) (hm : m'.cells = update m.cells i none) :
    m'.view key val = update (m.view key val) (key v) none := by
  funext k
  by_cases hk : k = key v
  · rw [hk, update_self]
    cases hview : m'.view key val (key v) with
    | none => rfl
    | some a =>
      obtain ⟨j, w, hw, hkw, -⟩ := cells_of_view hview
      by_cases hji : j = i
      · rw [hm, hji, update_self] at hw
        cases hw
      · rw [hm, update_of_ne hji] at hw
        exact absurd (h.inj j i w v hw hv hkw) hji
  · rw [update_of_ne hk]
    refine h.view_replace (h.erase hm) hm ?_ nofun
    intro w hw hkw
    rw [hv, Option.some.injEq] at hw
    exact hk (by rw [← hkw, hw])

end

/-- The table without the element of key `k`. -/
def remove (key : V → K) (m : SlotMap n V) (k : K) : SlotMap n V :=
  match m.find key k with
  | none => m
  | some i => m.copySet i none

lemma WF.remove (h : WF key m) : WF key (m.remove key k) := by
  unfold SlotMap.remove
  split
  · exact h
  · exact h.erase rfl

lemma WF.view_remove (h : WF key m) :
    (m.remove key k).view key val = update (m.view key val) k none := by
  unfold SlotMap.remove
  split
  · rename_i hf
    rw [eq_update_self_iff]
    exact view_eq_none.2 hf
  · rename_i i hf
    obtain ⟨-, v, hv, hk⟩ := find_spec hf
    rw [← hk]
    exact h.view_erase hv rfl

lemma WF.cells_remove (h : WF key m) (hv : (m.remove key k).cells i = some v) :
    m.cells i = some v ∧ key v ≠ k := by
  unfold SlotMap.remove at hv
  split at hv
  · rename_i hf
    exact ⟨hv, find_none hf (h.lt i v hv) hv⟩
  rename_i j hf
  obtain ⟨-, w, hw, hk⟩ := find_spec hf
  obtain ⟨-, ⟨⟩⟩ | ⟨hij, hv⟩ := update_cases hv
  refine ⟨hv, fun heq => hij ?_⟩
  exact h.inj i j v w hv hw (by rw [heq, hk])

end SlotMap

end MezonSfu
