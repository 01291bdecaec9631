import Mathlib.Algebra.BigOperators.Intervals
import Mathlib.Data.Nat.ModEq
import MezonSfu.SlotMap

/-!
Open addressing with tombstones: an index whose entries point at objects that carry the keys.

A probe goes from the home cell of a key to the first empty cell; it passes deleted cells and
entries of other keys, and remembers the first deleted cell for an insertion. In a well-formed
index every entry can be reached from the home of its key without meeting an empty cell, and no
key has two. Cells never become empty again, so entries stay in reach.
-/

namespace MezonSfu

open Function Option

inductive IndexCell (E : Type*) where
  | empty
  | deleted
  | full (e : E)
  deriving DecidableEq

def IndexCell.isDeleted {E : Type*} : IndexCell E → Bool
  | .deleted => true
  | _ => false

/-- An entry that points at an object: the hash of its key and its number. -/
structure HashSlot where
  hash : ℕ
  index : ℕ
  deriving DecidableEq

/-- The cells of an index. -/
structure HashIndex (E : Type*) where
  cells : ℕ → IndexCell E

namespace HashIndex

variable {E K : Type*}

/-- Where a probe ends: at an entry, at an empty cell, or after all cells. -/
inductive End where
  | hit (i : ℕ)
  | gap (i : ℕ)
  | all
  deriving DecidableEq

/-- A probe of at most `n` cells from `i` on. `free` is the first deleted cell so far. -/
def probe (t : HashIndex E) (cap : ℕ) (hit : E → Bool) : ℕ → ℕ → Option ℕ → Option ℕ × End
  | 0, _, free => (free, .all)
  | n + 1, i, free =>
    match t.cells i with
    | .empty => (free, .gap i)
    | .deleted => probe t cap hit n ((i + 1) % cap) (free.or (some i))
    | .full e =>
      if hit e then (free, .hit i) else probe t cap hit n ((i + 1) % cap) free

def clear : HashIndex E := ⟨fun _ => .empty⟩

def set (t : HashIndex E) (i : ℕ) (c : IndexCell E) : HashIndex E := ⟨update t.cells i c⟩

def deletedCount (t : HashIndex E) (cap : ℕ) : ℕ :=
  ∑ i ∈ Finset.range cap, if (t.cells i).isDeleted then 1 else 0

@[simp] lemma cells_set_self (t : HashIndex E) (i : ℕ) (c : IndexCell E) :
    (t.set i c).cells i = c :=
  update_self ..

lemma cells_set_of_ne {i j : ℕ} (h : j ≠ i) (t : HashIndex E) (c : IndexCell E) :
    (t.set i c).cells j = t.cells j :=
  update_of_ne h ..

lemma deletedCount_clear (cap : ℕ) : (clear : HashIndex E).deletedCount cap = 0 :=
  Finset.sum_eq_zero fun _ _ => rfl

lemma deletedCount_set {cap i : ℕ} (hi : i < cap) (t : HashIndex E) (c : IndexCell E) :
    (t.set i c).deletedCount cap + (if (t.cells i).isDeleted then 1 else 0) =
      t.deletedCount cap + if c.isDeleted then 1 else 0 := by
  have hmem := Finset.mem_range.2 hi
  unfold deletedCount
  rw [← Finset.add_sum_erase _ _ hmem, ← Finset.add_sum_erase _ _ hmem, cells_set_self]
  have hrest : ∑ j ∈ (Finset.range cap).erase i,
        (if ((t.set i c).cells j).isDeleted then 1 else 0) =
      ∑ j ∈ (Finset.range cap).erase i, if (t.cells j).isDeleted then 1 else 0 := by
    apply Finset.sum_congr rfl
    intro j hj
    rw [cells_set_of_ne (Finset.ne_of_mem_erase hj)]
  omega

/-! ### Probes -/

variable {t : HashIndex E} {cap : ℕ} {hit : E → Bool}

/-- A probe goes on behind a cell. -/
def Passed (hit : E → Bool) (c : IndexCell E) : Prop :=
  c = .deleted ∨ ∃ e, c = .full e ∧ hit e = false

lemma Passed.ne_empty {c : IndexCell E} (h : Passed hit c) : c ≠ .empty := by
  rcases h with rfl | ⟨e, rfl, -⟩ <;> exact nofun

/-- What a probe of `n` cells from `s` on can end with. -/
inductive Ends (t : HashIndex E) (cap : ℕ) (hit : E → Bool) (s n : ℕ) : End → Prop
  | hit (d : ℕ) (e : E) : d < n → t.cells ((s + d) % cap) = .full e → hit e = true →
      (∀ d' < d, Passed hit (t.cells ((s + d') % cap))) → Ends t cap hit s n (.hit ((s + d) % cap))
  | gap (d : ℕ) : d < n → t.cells ((s + d) % cap) = .empty →
      (∀ d' < d, Passed hit (t.cells ((s + d') % cap))) → Ends t cap hit s n (.gap ((s + d) % cap))
  | all : (∀ d' < n, Passed hit (t.cells ((s + d') % cap))) → Ends t cap hit s n .all

lemma Ends.step {s n : ℕ} {r : End} (h : Ends t cap hit (s + 1) n r)
    (hs : Passed hit (t.cells (s % cap))) : Ends t cap hit s (n + 1) r := by
  have hpassed : ∀ {d}, (∀ d' < d, Passed hit (t.cells ((s + 1 + d') % cap))) →
      ∀ d' < d + 1, Passed hit (t.cells ((s + d') % cap)) := by
    intro d hall d' hd'
    cases d' with
    | zero => exact hs
    | succ d' =>
      have hnext := hall d' (by omega)
      rwa [Nat.add_right_comm] at hnext
  cases h with
  | hit d e hd hc he hall =>
    rw [Nat.add_assoc, Nat.add_comm 1 d] at hc ⊢
    exact .hit (d + 1) e (by omega) hc he (hpassed hall)
  | gap d hd hc hall =>
    rw [Nat.add_assoc, Nat.add_comm 1 d] at hc ⊢
    exact .gap (d + 1) (by omega) hc (hpassed hall)
  | all hall => exact .all (hpassed hall)

lemma probe_ends (s n : ℕ) (free : Option ℕ) :
    Ends t cap hit s n (t.probe cap hit n (s % cap) free).2 := by
  induction n generalizing s free with
  | zero => exact .all fun _ h => absurd h (Nat.not_lt_zero _)
  | succ n ih =>
    unfold probe
    have hnext : (s % cap + 1) % cap = (s + 1) % cap := Nat.mod_add_mod s cap 1
    split
    · rename_i hc
      exact .gap 0 (Nat.succ_pos n) hc fun _ h => absurd h (Nat.not_lt_zero _)
    · rename_i hc
      rw [hnext]
      exact (ih (s + 1) _).step (.inl hc)
    · rename_i e hc
      split
      · rename_i he
        exact .hit 0 e (Nat.succ_pos n) hc he fun _ h => absurd h (Nat.not_lt_zero _)
      · rename_i he
        rw [hnext]
        exact (ih (s + 1) _).step (.inr ⟨e, hc, by simpa using he⟩)

lemma probe_some (n i f : ℕ) : (t.probe cap hit n i (some f)).1 = some f := by
  induction n generalizing i with
  | zero => rfl
  | succ n ih =>
    unfold probe
    split
    · rfl
    · exact ih _
    · split
      · rfl
      · exact ih _

lemma probe_gap {s n : ℕ} {free : Option ℕ} {i : ℕ}
    (h : (t.probe cap hit n (s % cap) free).2 = .gap i) : t.cells i = .empty := by
  have hends := @probe_ends E t cap hit s n free
  rw [h] at hends
  cases hends with
  | gap d hd hc _ => exact hc

lemma probe_free {s n j : ℕ} (h : (t.probe cap hit n (s % cap) none).1 = some j) :
    ∃ d < n, j = (s + d) % cap ∧ t.cells j = .deleted ∧
      ∀ d' < d, t.cells ((s + d') % cap) ≠ .empty := by
  induction n generalizing s with
  | zero => cases h
  | succ n ih =>
    unfold probe at h
    have hnext : (s % cap + 1) % cap = (s + 1) % cap := Nat.mod_add_mod s cap 1
    split at h
    · cases h
    · rename_i hc
      rw [none_or, probe_some, some.injEq] at h
      rw [← h]
      exact ⟨0, Nat.succ_pos n, rfl, hc, fun _ h => absurd h (Nat.not_lt_zero _)⟩
    · rename_i e hc
      split at h
      · cases h
      rw [hnext] at h
      obtain ⟨d, hd, hj, hdel, hall⟩ := ih h
      refine ⟨d + 1, by omega, ?_, hdel, ?_⟩
      · rw [hj, Nat.add_assoc, Nat.add_comm 1 d]
      intro d' hd'
      cases d' with
      | zero =>
        rw [Nat.add_zero, hc]
        exact nofun
      | succ d' =>
        have hne := hall d' (by omega)
        rwa [Nat.add_right_comm] at hne

lemma probe_all {s n : ℕ} (h : t.probe cap hit n (s % cap) none = (none, .all)) :
    ∀ d < n, ∃ e, t.cells ((s + d) % cap) = .full e := by
  induction n generalizing s with
  | zero => exact fun _ h => absurd h (Nat.not_lt_zero _)
  | succ n ih =>
    unfold probe at h
    have hnext : (s % cap + 1) % cap = (s + 1) % cap := Nat.mod_add_mod s cap 1
    split at h
    · cases h
    · rw [none_or] at h
      have hsome := @probe_some E t cap hit n ((s % cap + 1) % cap) (s % cap)
      rw [h] at hsome
      cases hsome
    · rename_i e hc
      split at h
      · cases h
      rw [hnext] at h
      intro d hd
      cases d with
      | zero => exact ⟨e, hc⟩
      | succ d =>
        obtain ⟨e', he'⟩ := ih h d (by omega)
        rw [Nat.add_right_comm] at he'
        exact ⟨e', he'⟩

/-- The cell `i` is met by a probe from `s` on. -/
def Reaches (t : HashIndex E) (cap s i : ℕ) : Prop :=
  ∃ d < cap, i = (s + d) % cap ∧ ∀ d' < d, t.cells ((s + d') % cap) ≠ .empty

/-- Every entry has a key, is in reach of the home of the key, and is the only one of it. -/
structure WF (key : E → Option K) (home : K → ℕ) (cap : ℕ) (t : HashIndex E) : Prop where
  keyed : ∀ i e, i < cap → t.cells i = .full e → ∃ k, key e = some k ∧ t.Reaches cap (home k) i
  inj : ∀ i j e e', i < cap → j < cap → t.cells i = .full e → t.cells j = .full e' →
    key e = key e' → i = j

variable {key key' : E → Option K} {home : K → ℕ} {i j : ℕ} {k : K} {e : E} {c : IndexCell E}

lemma wf_clear : WF key home cap (clear : HashIndex E) := by
  constructor
  · intro i e _ h
    cases h
  · intro i j e e' _ _ h
    cases h

lemma Reaches.set {s : ℕ} (h : t.Reaches cap s i) (hc : c ≠ .empty) (j : ℕ) :
    (t.set j c).Reaches cap s i := by
  obtain ⟨d, hd, hi, hall⟩ := h
  refine ⟨d, hd, hi, fun d' hd' => ?_⟩
  by_cases heq : (s + d') % cap = j
  · rw [heq, cells_set_self]
    exact hc
  · rw [cells_set_of_ne heq]
    exact hall d' hd'

/-- **Replacing a cell.** The new cell is a tombstone, or an entry in reach of the home of its
key, which no other entry has; the other entries keep their keys. -/
lemma WF.set (h : WF key home cap t)
    (hkeys : ∀ i e, i < cap → i ≠ j → t.cells i = .full e → key' e = key e)
    (hc : c = .deleted ∨ ∃ e k, c = .full e ∧ key' e = some k ∧ t.Reaches cap (home k) j ∧
      ∀ i e', i < cap → i ≠ j → t.cells i = .full e' → key e' ≠ some k) :
    WF key' home cap (t.set j c) := by
  have hne : c ≠ .empty := by
    rcases hc with rfl | ⟨e, k, rfl, -⟩ <;> exact nofun
  constructor
  · intro i e hi he
    by_cases hij : i = j
    · rw [hij, cells_set_self] at he
      rcases hc with rfl | ⟨e', k, rfl, hk, hreach, -⟩
      · cases he
      · cases he
        exact ⟨k, hk, hij ▸ hreach.set hne j⟩
    · rw [cells_set_of_ne hij] at he
      obtain ⟨k, hk, hreach⟩ := h.keyed i e hi he
      exact ⟨k, (hkeys i e hi hij he).trans hk, hreach.set hne j⟩
  · intro i i' e e' hi hi' he he' heq
    by_cases hij : i = j <;> by_cases hij' : i' = j
    · rw [hij, hij']
    · rw [hij, cells_set_self] at he
      rw [cells_set_of_ne hij'] at he'
      rcases hc with rfl | ⟨e₀, k, rfl, hk, -, hfresh⟩
      · cases he
      · cases he
        rw [hk, hkeys i' e' hi' hij' he'] at heq
        exact absurd heq.symm (hfresh i' e' hi' hij' he')
    · rw [hij', cells_set_self] at he'
      rw [cells_set_of_ne hij] at he
      rcases hc with rfl | ⟨e₀, k, rfl, hk, -, hfresh⟩
      · cases he'
      · cases he'
        rw [hk, hkeys i e hi hij he] at heq
        exact absurd heq (hfresh i e hi hij he)
    · rw [cells_set_of_ne hij] at he
      rw [cells_set_of_ne hij'] at he'
      rw [hkeys i e hi hij he, hkeys i' e' hi' hij' he'] at heq
      exact h.inj i i' e e' hi hi' he he' heq

/-- On the entries of the index the test of a probe is that for a key. -/
def Tests (key : E → Option K) (cap : ℕ) (t : HashIndex E) (hit : E → Bool) (k : K) : Prop :=
  ∀ i e, i < cap → t.cells i = .full e → (hit e = true ↔ key e = some k)

/-- **A probe finds the entry of its key**, and only that. -/
lemma WF.probe_hit_iff (h : WF key home cap t) (hhit : Tests key cap t hit k) (free : Option ℕ) :
    (t.probe cap hit cap (home k % cap) free).2 = .hit i ↔
      i < cap ∧ ∃ e, t.cells i = .full e ∧ key e = some k := by
  have hends := @probe_ends E t cap hit (home k) cap free
  generalize (t.probe cap hit cap (home k % cap) free).2 = r at hends
  constructor
  · rintro rfl
    cases hends with
    | hit d e hd hc he _ =>
      have hlt := Nat.mod_lt (home k + d) (by omega : 0 < cap)
      exact ⟨hlt, e, hc, (hhit _ e hlt hc).1 he⟩
  rintro ⟨hi, e, hc, hk⟩
  obtain ⟨k', hk', d, hd, rfl, hreach⟩ := h.keyed i e hi hc
  rw [hk, some.injEq] at hk'
  subst hk'
  -- the probe does not pass the entry
  have hstop : ¬ Passed hit (t.cells ((home k + d) % cap)) := by
    rw [hc]
    rintro (heq | ⟨e', heq, hfalse⟩)
    · cases heq
    · cases heq
      rw [(hhit _ e hi hc).2 hk] at hfalse
      cases hfalse
  cases hends with
  | hit d' e' hd' hc' he' _ =>
    have hlt := Nat.mod_lt (home k + d') (by omega : 0 < cap)
    have hsame := h.inj _ _ e' e hlt hi hc' hc (by rw [(hhit _ e' hlt hc').1 he', hk])
    rw [hsame]
  | gap d' hd' hc' hall =>
    exfalso
    rcases Nat.lt_trichotomy d' d with hlt | rfl | hgt
    · exact hreach d' hlt hc'
    · rw [hc] at hc'
      cases hc'
    · exact hstop (hall d hgt)
  | all hall => exact absurd (hall d hd) hstop

def vacancy : Option ℕ × End → Option ℕ
  | (_, .hit i) => some i
  | (free, .gap i) => some (free.getD i)
  | (free, .all) => free

lemma vacancy_spec (hmiss : ∀ i, (t.probe cap hit cap (home k % cap) none).2 ≠ .hit i)
    (h : vacancy (t.probe cap hit cap (home k % cap) none) = some j) :
    j < cap ∧ (∀ e, t.cells j ≠ .full e) ∧ t.Reaches cap (home k) j := by
  have hends := @probe_ends E t cap hit (home k) cap none
  have hfree := @probe_free E t cap hit (home k) cap
  generalize t.probe cap hit cap (home k % cap) none = r at hmiss h hends hfree
  obtain ⟨free, r⟩ := r
  have hdeleted : free = some j → j < cap ∧ (∀ e, t.cells j ≠ .full e) ∧
      t.Reaches cap (home k) j := by
    intro hj
    obtain ⟨d, hd, hjd, hc, hall⟩ := hfree hj
    refine ⟨hjd ▸ Nat.mod_lt _ (by omega), fun e he => ?_, d, hd, hjd, hall⟩
    rw [hc] at he
    cases he
  cases hends with
  | hit d e hd hc he _ => exact absurd rfl (hmiss _)
  | gap d hd hc hall =>
    cases free with
    | some f => exact hdeleted h
    | none =>
      change some ((home k + d) % cap) = some j at h
      rw [some.injEq] at h
      subst h
      refine ⟨Nat.mod_lt _ (by omega), fun e he => ?_, d, hd, rfl, fun d' hd' =>
        (hall d' hd').ne_empty⟩
      rw [hc] at he
      cases he
  | all _ => exact hdeleted h

lemma vacancy_none (h : vacancy (t.probe cap hit cap (home k % cap) none) = none) :
    ∀ i < cap, ∃ e, t.cells i = .full e := by
  have hall := @probe_all E t cap hit (home k) cap
  generalize t.probe cap hit cap (home k % cap) none = r at h hall
  obtain ⟨free, r⟩ := r
  cases r with
  | hit | gap => cases h
  | all =>
    change free = none at h
    rw [h] at hall
    intro i hi
    -- the cell is met on the way around
    obtain ⟨e, he⟩ := hall rfl ((i + (cap - home k % cap)) % cap) (Nat.mod_lt _ (by omega))
    refine ⟨e, ?_⟩
    have hlt := Nat.mod_lt (home k) (by omega : 0 < cap)
    have hcell : (home k + (i + (cap - home k % cap)) % cap) % cap = i := by
      rw [Nat.add_mod_mod, ← Nat.mod_add_mod]
      have hsum : home k % cap + (i + (cap - home k % cap)) = i + cap := by omega
      rw [hsum, Nat.add_mod_right, Nat.mod_eq_of_lt hi]
    rwa [hcell] at he

lemma exists_vacancy (f : E → ℕ) (s : Finset ℕ) (hcard : s.card < cap)
    (hmem : ∀ i e, i < cap → t.cells i = .full e → f e ∈ s)
    (hinj : ∀ i j e e', i < cap → j < cap → t.cells i = .full e → t.cells j = .full e' →
      f e = f e' → i = j) : ∃ j, vacancy (t.probe cap hit cap (home k % cap) none) = some j := by
  cases hv : vacancy (t.probe cap hit cap (home k % cap) none) with
  | some j => exact ⟨j, rfl⟩
  | none =>
    exfalso
    have hfull := vacancy_none hv
    obtain ⟨e₀, -⟩ := hfull 0 (by omega)
    have : Nonempty E := ⟨e₀⟩
    choose! g hg using hfull
    have hle := Finset.card_le_card_of_injOn (s := Finset.range cap) (t := s) (fun i => f (g i))
      (by
        intro i hi
        exact hmem i _ (Finset.mem_range.1 hi) (hg i (Finset.mem_range.1 hi)))
      (by
        intro i hi j hj heq
        have hi := Finset.mem_range.1 hi
        have hj := Finset.mem_range.1 hj
        exact hinj i j _ _ hi hj (hg i hi) (hg j hj) heq)
    rw [Finset.card_range] at hle
    omega

/-! ### Indexed objects -/

/-- The key a slot stands for: that of its object, if the slot has the hash of the key. -/
def slotKey (hash : K → ℕ) (obj : ℕ → Option K) (s : HashSlot) : Option K :=
  (obj s.index).bind fun k => if s.hash = hash k then some k else none

/-- Every object with a key has its slot, and every slot its object. -/
structure Covers (hash : K → ℕ) (obj : ℕ → Option K) (cap : ℕ) (t : HashIndex HashSlot) : Prop where
  wf : WF (slotKey hash obj) hash cap t
  covered : ∀ i k, obj i = some k → ∃ j < cap, t.cells j = .full ⟨hash k, i⟩

section Objects

variable {hash : K → ℕ} {obj : ℕ → Option K} {t : HashIndex HashSlot} {s s' : HashSlot}
  {hit : HashSlot → Bool} {l : ℕ}

lemma slotKey_eq_some : slotKey hash obj s = some k ↔ obj s.index = some k ∧ s.hash = hash k := by
  unfold slotKey
  rw [bind_eq_some_iff]
  constructor
  · rintro ⟨k', hk', hkey⟩
    split at hkey
    · rename_i hh
      cases hkey
      exact ⟨hk', hh⟩
    · cases hkey
  · rintro ⟨hk, hh⟩
    exact ⟨k, hk, if_pos hh⟩

lemma slotKey_self (hi : obj i = some k) : slotKey hash obj ⟨hash k, i⟩ = some k :=
  slotKey_eq_some.2 ⟨hi, rfl⟩

lemma covers_clear (h : ∀ i, obj i = none) : Covers hash obj cap clear := by
  refine ⟨wf_clear, fun i k hk => ?_⟩
  rw [h i] at hk
  cases hk

lemma Covers.slot (h : Covers hash obj cap t) (hj : j < cap) (hc : t.cells j = .full s) :
    ∃ k, obj s.index = some k ∧ s = ⟨hash k, s.index⟩ := by
  obtain ⟨k, hk, -⟩ := h.wf.keyed j s hj hc
  obtain ⟨hobj, hh⟩ := slotKey_eq_some.1 hk
  exact ⟨k, hobj, by rw [← hh]⟩

lemma Covers.cell_inj (h : Covers hash obj cap t) (hi : i < cap) (hj : j < cap)
    (hc : t.cells i = .full s) (hc' : t.cells j = .full s') (heq : s.index = s'.index) : i = j := by
  obtain ⟨k, hk, hs⟩ := h.slot hi hc
  obtain ⟨k', hk', hs'⟩ := h.slot hj hc'
  rw [heq, hk', some.injEq] at hk
  refine h.wf.inj i j s s' hi hj hc hc' ?_
  rw [hs, hs', heq, hk]

lemma Covers.obj_inj (h : Covers hash obj cap t) (hi : obj i = some k) (hl : obj l = some k) :
    i = l := by
  obtain ⟨x, hx, hcx⟩ := h.covered i k hi
  obtain ⟨y, hy, hcy⟩ := h.covered l k hl
  have hxy := h.wf.inj x y _ _ hx hy hcx hcy (by rw [slotKey_self hi, slotKey_self hl])
  rw [hxy, hcy, IndexCell.full.injEq, HashSlot.mk.injEq] at hcx
  exact hcx.2.symm

lemma tests_of (hhit : ∀ j s, j < cap → t.cells j = .full s →
    (hit s ↔ s.hash = hash k ∧ obj s.index = some k)) :
    Tests (slotKey hash obj) cap t hit k := by
  intro j s hj hc
  rw [hhit j s hj hc, slotKey_eq_some, and_comm]

variable (h : Covers hash obj cap t)

include h

section

variable (hhit : Tests (slotKey hash obj) cap t hit k)

include hhit

lemma Covers.hit_of_obj (hi : obj i = some k) :
    ∃ j < cap, t.cells j = .full ⟨hash k, i⟩ ∧
      ∀ free, (t.probe cap hit cap (hash k % cap) free).2 = .hit j := by
  obtain ⟨j, hj, hc⟩ := h.covered i k hi
  exact ⟨j, hj, hc, fun free => (h.wf.probe_hit_iff hhit free).2 ⟨hj, _, hc, slotKey_self hi⟩⟩

lemma Covers.obj_of_hit {free : Option ℕ}
    (hp : (t.probe cap hit cap (hash k % cap) free).2 = .hit j) :
    j < cap ∧ ∃ i, t.cells j = .full ⟨hash k, i⟩ ∧ obj i = some k := by
  obtain ⟨hj, s, hc, hk⟩ := (h.wf.probe_hit_iff hhit free).1 hp
  obtain ⟨hobj, hh⟩ := slotKey_eq_some.1 hk
  exact ⟨hj, s.index, by rw [hc, ← hh], hobj⟩

lemma Covers.place (hnew : ∀ i, obj i ≠ some k) (objects : Finset ℕ) (hcard : objects.card < cap)
    (hobj : ∀ i k, obj i = some k → i ∈ objects) :
    ∃ j < cap, vacancy (t.probe cap hit cap (hash k % cap) none) = some j ∧
      (∀ s, t.cells j ≠ .full s) ∧ t.Reaches cap (hash k) j := by
  have hmiss : ∀ j, (t.probe cap hit cap (hash k % cap) none).2 ≠ .hit j := by
    intro j hp
    obtain ⟨-, i, -, hi⟩ := h.obj_of_hit hhit hp
    exact hnew i hi
  obtain ⟨j, hv⟩ := @exists_vacancy HashSlot K t cap hit hash k HashSlot.index objects hcard
    (by
      intro j s hj hc
      obtain ⟨k, hk, -⟩ := h.slot hj hc
      exact hobj _ k hk)
    fun i j s s' hi hj hc hc' => h.cell_inj hi hj hc hc'
  obtain ⟨hj, hfree, hreach⟩ := vacancy_spec hmiss hv
  exact ⟨j, hj, hv, hfree, hreach⟩

end

lemma Covers.insert (hi : obj i = none) (hnew : ∀ l, obj l ≠ some k)
    (hj : j < cap) (hfree : ∀ s, t.cells j ≠ .full s) (hreach : t.Reaches cap (hash k) j) :
    Covers hash (update obj i (some k)) cap (t.set j (.full ⟨hash k, i⟩)) := by
  constructor
  · refine h.wf.set ?_ (.inr ⟨_, k, rfl, ?_, hreach, ?_⟩)
    · intro x s hx _ hc
      obtain ⟨k', hk', -⟩ := h.slot hx hc
      have hne : s.index ≠ i := by
        intro heq
        rw [heq, hi] at hk'
        cases hk'
      unfold slotKey
      rw [update_of_ne hne]
    · exact slotKey_eq_some.2 ⟨update_self .., rfl⟩
    · intro x s hx _ hc hk
      exact hnew _ (slotKey_eq_some.1 hk).1
  · intro l k' hl
    obtain ⟨rfl, ⟨⟩⟩ | ⟨-, hl⟩ := update_cases hl
    · exact ⟨j, hj, by rw [cells_set_self]⟩
    obtain ⟨x, hx, hc⟩ := h.covered l k' hl
    have hxj : x ≠ j := by
      rintro rfl
      exact hfree _ hc
    exact ⟨x, hx, by rw [cells_set_of_ne hxj, hc]⟩

lemma Covers.delete (hj : j < cap) (hc : t.cells j = .full s) :
    Covers hash (update obj s.index none) cap (t.set j .deleted) := by
  constructor
  · refine h.wf.set ?_ (.inl rfl)
    intro x s' hx hxj hc'
    have hne : s'.index ≠ s.index := fun heq => hxj (h.cell_inj hx hj hc' hc heq)
    unfold slotKey
    rw [update_of_ne hne]
  · intro l k hl
    obtain ⟨hne, hl⟩ := (update_cases hl).resolve_left nofun
    obtain ⟨x, hx, hcx⟩ := h.covered l k hl
    have hxj : x ≠ j := by
      rintro rfl
      rw [hc, IndexCell.full.injEq] at hcx
      exact hne (by rw [hcx])
    exact ⟨x, hx, by rw [cells_set_of_ne hxj, hcx]⟩

lemma Covers.move (hi : obj i = none) (hl : obj l = some k) (hj : j < cap)
    (hc : t.cells j = .full ⟨hash k, l⟩) :
    Covers hash (update (update obj i (some k)) l none) cap (t.set j (.full ⟨hash k, i⟩)) := by
  have hli : l ≠ i := by
    rintro rfl
    rw [hl] at hi
    cases hi
  have hold : ∀ x s, x < cap → x ≠ j → t.cells x = .full s → s.index ≠ i ∧ s.index ≠ l := by
    intro x s hx hxj hcx
    obtain ⟨k', hk', -⟩ := h.slot hx hcx
    refine ⟨fun heq => ?_, fun heq => hxj (h.cell_inj hx hj hcx hc heq)⟩
    rw [heq, hi] at hk'
    cases hk'
  constructor
  · refine h.wf.set ?_ (.inr ⟨_, k, rfl, ?_, ?_, ?_⟩)
    · intro x s hx hxj hcx
      obtain ⟨hsi, hsl⟩ := hold x s hx hxj hcx
      unfold slotKey
      rw [update_of_ne hsl, update_of_ne hsi]
    · refine slotKey_eq_some.2 ⟨?_, rfl⟩
      rw [update_of_ne hli.symm, update_self]
    · obtain ⟨k', hk', hreach⟩ := h.wf.keyed j _ hj hc
      rw [slotKey_self hl, some.injEq] at hk'
      rw [hk']
      exact hreach
    · intro x s hx hxj hcx hk
      exact (hold x s hx hxj hcx).2 (h.obj_inj (slotKey_eq_some.1 hk).1 hl)
  · intro y k' hy
    obtain ⟨hyl, hy⟩ := (update_cases hy).resolve_left nofun
    obtain ⟨rfl, ⟨⟩⟩ | ⟨-, hy⟩ := update_cases hy
    · exact ⟨j, hj, by rw [cells_set_self]⟩
    obtain ⟨x, hx, hcx⟩ := h.covered y k' hy
    have hxj : x ≠ j := by
      rintro rfl
      rw [hc, IndexCell.full.injEq, HashSlot.mk.injEq] at hcx
      exact hyl hcx.2.symm
    exact ⟨x, hx, by rw [cells_set_of_ne hxj, hcx]⟩

end Objects

end HashIndex

end MezonSfu
