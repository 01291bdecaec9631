import Mathlib.Data.Nat.ModEq
import Mathlib.Data.Set.Card
import Mathlib.Logic.Function.Basic
import Mathlib.Tactic

/-!
Hash tables with linear probing and no deletion.

A table is an array of cells; a key is looked for from the cell of its hash on, up to the first
cell that is empty or holds it. In a well-formed table every stored key is where its own probe
ends, so a write there changes the value of one key only.
-/

namespace MezonSfu

open Function Option

/-- A table; an empty cell holds `none`. -/
structure Probing (K V : Type*) where
  cells : ℕ → Option (K × V)

namespace Probing

variable {K V : Type*} [DecidableEq K] (hash : K → ℕ) (cap : ℕ)

/-- A probe for `k` ends at the cell `i`. -/
def stops (t : Probing K V) (k : K) (i : ℕ) : Bool :=
  match t.cells i with
  | none => true
  | some c => c.1 = k

/-- The cell in which a probe of at most `n` cells from `i` on ends. -/
def probe (t : Probing K V) (k : K) : ℕ → ℕ → Option ℕ
  | 0, _ => none
  | n + 1, i => if t.stops k i then some i else probe t k n ((i + 1) % cap)

/-- The cell of a key: the one that holds it, or the empty one in which it is to be put. -/
def locate (t : Probing K V) (k : K) : Option ℕ := t.probe cap k cap (hash k % cap)

def value (t : Probing K V) (k : K) : Option V :=
  (t.locate hash cap k).bind fun i => (t.cells i).map Prod.snd

/-- The table after `k` and its value are put in the cell `i`. -/
def write (t : Probing K V) (i : ℕ) (k : K) (v : V) : Probing K V :=
  ⟨update t.cells i (some (k, v))⟩

/-- Every stored key is where its probe ends. -/
def WF (t : Probing K V) : Prop := ∀ i k v, t.cells i = some (k, v) → t.locate hash cap k = some i

variable {hash cap} {t : Probing K V} {k k' : K} {v w : V} {i j n m : ℕ}

lemma wf_empty : WF hash cap (⟨fun _ => none⟩ : Probing K V) := by
  intro i k v h
  cases h

lemma stops_iff : t.stops k i ↔ t.cells i = none ∨ ∃ v, t.cells i = some (k, v) := by
  unfold stops
  rcases t.cells i with _ | ⟨k', v⟩
  · simp
  simp only [decide_eq_true_eq, reduceCtorEq, some.injEq, Prod.mk.injEq, false_or]
  constructor
  · intro hk
    exact ⟨v, hk, rfl⟩
  · rintro ⟨-, hk, -⟩
    exact hk

lemma probe_stops (h : t.probe cap k n i = some j) : t.stops k j := by
  induction n generalizing i with
  | zero => cases h
  | succ n ih =>
    unfold probe at h
    split at h
    · rename_i hs
      cases h
      exact hs
    · exact ih h

lemma locate_stops (h : t.locate hash cap k = some i) :
    t.cells i = none ∨ ∃ v, t.cells i = some (k, v) :=
  stops_iff.1 (probe_stops h)

omit [DecidableEq K] in
@[simp] lemma cells_write_self (t : Probing K V) (i : ℕ) (k : K) (v : V) :
    (t.write i k v).cells i = some (k, v) :=
  update_self ..

omit [DecidableEq K] in
lemma cells_write_of_ne (h : j ≠ i) (t : Probing K V) (k : K) (v : V) :
    (t.write i k v).cells j = t.cells j :=
  update_of_ne h ..

lemma stops_write_of_ne (h : i ≠ j) (k' : K) (v : V) :
    (t.write i k' v).stops k j = t.stops k j := by
  unfold stops
  rw [cells_write_of_ne h.symm]

lemma stops_write_self (k' : K) (v : V) : (t.write i k' v).stops k i = decide (k' = k) := by
  unfold stops
  rw [cells_write_self]

lemma probe_write_self (h : t.probe cap k n i = some j) (v : V) :
    (t.write j k v).probe cap k n i = some j := by
  induction n generalizing i with
  | zero => cases h
  | succ n ih =>
    unfold probe at h ⊢
    rcases eq_or_ne j i with rfl | hne
    · rw [stops_write_self]
      simp
    rw [stops_write_of_ne hne]
    split at h
    · cases h
      exact absurd rfl hne
    · rename_i hs
      rw [if_neg hs]
      exact ih h

lemma probe_write_of_ne (hk : k ≠ k') (hc : t.stops k' j) (h : t.probe cap k n i = some m)
    (hn : t.cells m = some (k, w)) (v : V) : (t.write j k' v).probe cap k n i = some m := by
  have hne : j ≠ m := by
    rintro rfl
    rcases stops_iff.1 hc with h0 | ⟨u, hu⟩
    · rw [hn] at h0
      cases h0
    · rw [hn] at hu
      exact hk (Prod.mk.inj (some.inj hu)).1
  induction n generalizing i with
  | zero => cases h
  | succ n ih =>
    unfold probe at h ⊢
    split at h
    · rename_i hs
      cases h
      rw [stops_write_of_ne hne, if_pos hs]
    have hstep : ¬ (t.write j k' v).stops k i := by
      rcases eq_or_ne j i with rfl | hji
      · rw [stops_write_self]
        simpa using hk.symm
      · rwa [stops_write_of_ne hji]
    rw [if_neg hstep]
    exact ih h

section

variable (h : WF hash cap t)

include h

/-- **Writing keeps the table well formed.** -/
theorem WF.write (hi : t.locate hash cap k = some i) (v : V) : WF hash cap (t.write i k v) := by
  intro j k' w hj
  rcases eq_or_ne j i with rfl | hne
  · rw [cells_write_self] at hj
    obtain ⟨rfl, -⟩ := Prod.mk.inj (some.inj hj)
    exact probe_write_self hi v
  rw [cells_write_of_ne hne] at hj
  have hloc := h j k' w hj
  have hkk : k' ≠ k := by
    rintro rfl
    rw [hi] at hloc
    exact hne (some.inj hloc).symm
  exact probe_write_of_ne hkk (probe_stops hi) hloc hj v

theorem WF.value_eq_some : t.value hash cap k = some v ↔ ∃ i, t.cells i = some (k, v) := by
  unfold value
  constructor
  · intro hv
    obtain ⟨i, hi, hval⟩ := bind_eq_some_iff.1 hv
    rcases locate_stops hi with h0 | ⟨u, hu⟩
    · rw [h0] at hval
      cases hval
    · rw [hu] at hval
      cases hval
      exact ⟨i, hu⟩
  · rintro ⟨i, hi⟩
    rw [h i k v hi]
    simp [hi]

theorem WF.value_write_self (hi : t.locate hash cap k = some i) (v : V) :
    (t.write i k v).value hash cap k = some v :=
  (h.write hi v).value_eq_some.2 ⟨i, cells_write_self t i k v⟩

theorem WF.value_write_of_ne (hi : t.locate hash cap k = some i) (v : V)
    (hk : k' ≠ k) : (t.write i k v).value hash cap k' = t.value hash cap k' := by
  refine ext fun w => ?_
  rw [(h.write hi v).value_eq_some, h.value_eq_some]
  constructor
  · rintro ⟨j, hj⟩
    have hne : j ≠ i := by
      rintro rfl
      rw [cells_write_self] at hj
      exact hk (Prod.mk.inj (some.inj hj)).1.symm
    rw [cells_write_of_ne hne] at hj
    exact ⟨j, hj⟩
  · rintro ⟨j, hj⟩
    have hne : j ≠ i := by
      rintro rfl
      rcases locate_stops hi with h0 | ⟨u, hu⟩
      · rw [hj] at h0
        cases h0
      · rw [hj] at hu
        exact hk (Prod.mk.inj (some.inj hu)).1
    refine ⟨j, ?_⟩
    rw [cells_write_of_ne hne]
    exact hj

end

lemma value_of_locate (hi : t.locate hash cap k = some i) :
    t.value hash cap k = (t.cells i).map Prod.snd := by
  unfold value
  rw [hi]
  rfl

lemma probe_lt (hi : i < cap) (h : t.probe cap k n i = some j) : j < cap := by
  induction n generalizing i with
  | zero => cases h
  | succ n ih =>
    unfold probe at h
    split at h
    · cases h
      exact hi
    · exact ih (Nat.mod_lt _ (by omega)) h

lemma cells_of_probe_none (hi : i < cap) (h : t.probe cap k n i = none) (hm : m < n) :
    t.cells ((i + m) % cap) ≠ none := by
  induction n generalizing i m with
  | zero => omega
  | succ n ih =>
    unfold probe at h
    split at h
    · cases h
    rename_i hs
    cases m with
    | zero =>
      rw [Nat.add_zero, Nat.mod_eq_of_lt hi]
      exact fun h0 => hs (stops_iff.2 (.inl h0))
    | succ m =>
      have hcell := ih (Nat.mod_lt _ (by omega)) h (Nat.lt_of_succ_lt_succ hm)
      rwa [Nat.mod_add_mod, Nat.add_assoc, Nat.add_comm 1] at hcell

section

variable (h : WF hash cap t) (hcap : 0 < cap)

include h

lemma WF.ncard_keys : {k | t.value hash cap k ≠ none}.ncard = {i | t.cells i ≠ none}.ncard := by
  have hcell : ∀ k, t.value hash cap k ≠ none →
      ∃ v, t.cells ((t.locate hash cap k).getD 0) = some (k, v) := by
    intro k hk
    obtain ⟨v, hv⟩ := ne_none_iff_exists'.1 hk
    obtain ⟨i, hi⟩ := h.value_eq_some.1 hv
    refine ⟨v, ?_⟩
    rwa [h i k v hi]
  have hinj : Set.InjOn (fun k => (t.locate hash cap k).getD 0)
      {k | t.value hash cap k ≠ none} := by
    intro k hk k' hk' heq
    obtain ⟨v, hv⟩ := hcell k hk
    obtain ⟨w, hw⟩ := hcell k' hk'
    dsimp only at heq
    rw [heq, hw] at hv
    cases hv
    rfl
  rw [← hinj.ncard_image]
  congr 1
  ext i
  constructor
  · rintro ⟨k, hk, rfl⟩
    obtain ⟨v, hv⟩ := hcell k hk
    simp [hv]
  intro hi
  obtain ⟨⟨k, v⟩, hkv⟩ := ne_none_iff_exists'.1 hi
  refine ⟨k, ?_, ?_⟩
  · simp [h.value_eq_some.2 ⟨i, hkv⟩]
  · simp [h i k v hkv]

include hcap

/-- **A key has no place** exactly when it is not stored and as many others are as there are
cells. -/
theorem WF.locate_eq_none :
    t.locate hash cap k = none ↔
      t.value hash cap k = none ∧ {k | t.value hash cap k ≠ none}.ncard = cap := by
  have hused : {i | t.cells i ≠ none} ⊆ Set.Iio cap := by
    intro i hi
    obtain ⟨⟨k, v⟩, hkv⟩ := ne_none_iff_exists'.1 hi
    exact probe_lt (Nat.mod_lt _ hcap) (h i k v hkv)
  have hcard : (Set.Iio cap).ncard = cap := by
    rw [Set.ncard_eq_toFinset_card', Set.toFinset_Iio, Nat.card_Iio]
  rw [h.ncard_keys]
  constructor
  · intro hnone
    refine ⟨by simp [value, hnone], ?_⟩
    suffices hall : {i | t.cells i ≠ none} = Set.Iio cap by rw [hall, hcard]
    refine hused.antisymm fun i hi => ?_
    have hstart : hash k % cap < cap := Nat.mod_lt _ hcap
    have hcell := cells_of_probe_none (m := (i + cap - hash k % cap) % cap) hstart hnone
      (Nat.mod_lt _ hcap)
    rwa [Nat.add_mod_mod, show hash k % cap + (i + cap - hash k % cap) = i + cap by omega,
      Nat.add_mod_right, Nat.mod_eq_of_lt hi] at hcell
  · rintro ⟨hval, hfull⟩
    by_contra hloc
    obtain ⟨i, hi⟩ := ne_none_iff_exists'.1 hloc
    have hall := Set.eq_of_subset_of_ncard_le hused (by rw [hfull, hcard]) (Set.finite_Iio cap)
    have hmem : i ∈ {i | t.cells i ≠ none} := hall ▸ probe_lt (Nat.mod_lt _ hcap) hi
    rcases locate_stops hi with h0 | ⟨v, hv⟩
    · exact hmem h0
    · rw [h.value_eq_some.2 ⟨i, hv⟩] at hval
      cases hval

end

end Probing

end MezonSfu
