import Mathlib.Data.Nat.ModEq
import Mathlib.Logic.Function.Basic
import Mathlib.Tactic

/-!
Circular buffers: an array of `cap` cells with a head, a tail and a count, and the list of its
elements from the head on.

Each operation has a lemma that says what it does to the list. `WF` relates the three indices.
-/

namespace MezonSfu

open Function List

structure Ring (α : Type*) where
  cells : ℕ → α
  head : ℕ
  tail : ℕ
  count : ℕ

namespace Ring

variable {α : Type*} (cap : ℕ)

/-- The empty buffer over cells that hold `a`. -/
def empty (a : α) : Ring α := ⟨fun _ => a, 0, 0, 0⟩

section

variable (r : Ring α)

/-- The cell of the element number `i`. -/
def index (i : ℕ) : ℕ := (r.head + i) % cap

/-- The elements, from the head on. -/
def toList : List α := (List.range r.count).map fun i => r.cells (r.index cap i)

def push (a : α) : Ring α :=
  { r with
    cells := update r.cells r.tail a
    tail := (r.tail + 1) % cap
    count := r.count + 1 }

def pop : Ring α := { r with head := (r.head + 1) % cap, count := r.count - 1 }

def unpush : Ring α := { r with tail := (r.tail + cap - 1) % cap, count := r.count - 1 }

/-- Move the element number `i + 1` down to the place of number `i`. -/
def shiftCell (cells : ℕ → α) (i : ℕ) : ℕ → α :=
  update cells (r.index cap i) (cells (r.index cap (i + 1)))

/-- Take the element number `offset` out and move the later ones down. -/
def removeAt (offset : ℕ) : Ring α :=
  { r with
    cells := (List.range' offset (r.count - 1 - offset)).foldl (r.shiftCell cap) r.cells
    tail := (r.head + r.count - 1) % cap
    count := r.count - 1 }

def modifyLast (f : α → α) : Ring α :=
  { r with
    cells := update r.cells ((r.tail + cap - 1) % cap)
      (f (r.cells ((r.tail + cap - 1) % cap))) }

end

def map {β : Type*} (f : α → β) (r : Ring α) : Ring β := ⟨f ∘ r.cells, r.head, r.tail, r.count⟩

/-- Visit one cell with the value carried so far. -/
def visit {β : Type*} (f : β → α → β × α) (s : β × (ℕ → α)) (i : ℕ) : β × (ℕ → α) :=
  ((f s.1 (s.2 i)).1, update s.2 i (f s.1 (s.2 i)).2)

/-- Go over the elements from the head on, carry a value along and change each element. -/
def walk {β : Type*} (r : Ring α) (f : β → α → β × α) (b : β) : β × Ring α :=
  let s := ((List.range r.count).map (r.index cap)).foldl (visit f) (b, r.cells)
  (s.1, { r with cells := s.2 })

def listWalk {β : Type*} (f : β → α → β × α) : β → List α → β × List α
  | b, [] => (b, [])
  | b, a :: l => ((listWalk f (f b a).1 l).1, (f b a).2 :: (listWalk f (f b a).1 l).2)

/-- The indices fit together. -/
structure WF (r : Ring α) : Prop where
  head_lt : r.head < cap
  count_le : r.count ≤ cap
  tail_eq : r.tail = (r.head + r.count) % cap

variable {cap} {r : Ring α}

@[simp] lemma length_toList : (r.toList cap).length = r.count := by simp [toList]

@[simp] lemma toList_empty (a : α) : (empty a).toList cap = [] := rfl

lemma wf_empty (a : α) (h : 0 < cap) : (empty a).WF cap := ⟨h, Nat.zero_le _, (Nat.zero_mod _).symm⟩

lemma getElem?_toList {i : ℕ} (hi : i < r.count) :
    (r.toList cap)[i]? = some (r.cells (r.index cap i)) := by
  simp [toList, hi]

lemma index_inj {i j : ℕ} (hi : i < cap) (hj : j < cap)
    (h : r.index cap i = r.index cap j) : i = j := by
  have hmod : i % cap = j % cap := Nat.ModEq.add_left_cancel' r.head h
  rwa [Nat.mod_eq_of_lt hi, Nat.mod_eq_of_lt hj] at hmod

lemma WF.push (h : r.WF cap) (hc : r.count < cap) (a : α) : (r.push cap a).WF cap := by
  refine ⟨h.head_lt, hc, ?_⟩
  change (r.tail + 1) % cap = (r.head + (r.count + 1)) % cap
  rw [h.tail_eq, Nat.mod_add_mod, Nat.add_assoc]

lemma toList_push (h : r.WF cap) (hc : r.count < cap) (a : α) :
    (r.push cap a).toList cap = r.toList cap ++ [a] := by
  have hold : ∀ i < r.count, (r.push cap a).cells (r.index cap i) =
      r.cells (r.index cap i) := by
    intro i hi
    have hne : r.index cap i ≠ r.tail := by
      rw [h.tail_eq]
      intro heq
      have := index_inj (hi.trans hc) hc heq
      omega
    simp [Ring.push, hne]
  have hnew : (r.push cap a).cells (r.index cap r.count) = a := by
    have : r.index cap r.count = r.tail := h.tail_eq.symm
    simp [Ring.push, this]
  change (List.range (r.count + 1)).map _ = _
  rw [range_succ, map_append, map_singleton]
  change (List.range r.count).map (fun i => (r.push cap a).cells (r.index cap i)) ++
    [(r.push cap a).cells (r.index cap r.count)] = _
  rw [hnew]
  congr 1
  exact map_congr_left fun i hi => hold i (mem_range.1 hi)

lemma WF.pop (h : r.WF cap) (hc : 0 < r.count) : (r.pop cap).WF cap := by
  have hcap : 0 < cap := lt_of_lt_of_le hc h.count_le
  refine ⟨Nat.mod_lt _ hcap, (Nat.sub_le _ _).trans h.count_le, ?_⟩
  change r.tail = ((r.head + 1) % cap + (r.count - 1)) % cap
  rw [h.tail_eq, Nat.mod_add_mod]
  congr 1
  omega

lemma index_pop (i : ℕ) : (r.pop cap).index cap i = r.index cap (i + 1) := by
  change ((r.head + 1) % cap + i) % cap = (r.head + (i + 1)) % cap
  rw [Nat.mod_add_mod]
  congr 1
  omega

lemma toList_eq_cons (hc : 0 < r.count) :
    r.toList cap = r.cells (r.index cap 0) :: (r.pop cap).toList cap := by
  obtain ⟨n, hn⟩ := Nat.exists_eq_succ_of_ne_zero hc.ne'
  unfold toList
  have hcount : (r.pop cap).count = n := by
    change r.count - 1 = n
    omega
  rw [hn, range_succ_eq_map, map_cons, map_map, hcount]
  congr 1
  refine map_congr_left fun i _ => ?_
  rw [index_pop]
  rfl

lemma WF.unpush (h : r.WF cap) (hc : 0 < r.count) : (r.unpush cap).WF cap := by
  refine ⟨h.head_lt, (Nat.sub_le _ _).trans h.count_le, ?_⟩
  change (r.tail + cap - 1) % cap = (r.head + (r.count - 1)) % cap
  have hcap : 0 < cap := lt_of_lt_of_le hc h.count_le
  have hsplit : r.tail + cap - 1 = r.tail + (cap - 1) := by omega
  rw [hsplit, h.tail_eq, Nat.mod_add_mod]
  have : r.head + r.count + (cap - 1) = r.head + (r.count - 1) + cap := by omega
  rw [this, Nat.add_mod_right]

lemma toList_unpush : (r.unpush cap).toList cap = (r.toList cap).dropLast := by
  unfold toList
  change (List.range (r.count - 1)).map (fun i => r.cells (r.index cap i)) = _
  rcases Nat.eq_zero_or_pos r.count with h0 | hpos
  · simp [h0]
  · obtain ⟨n, hn⟩ := Nat.exists_eq_succ_of_ne_zero hpos.ne'
    rw [hn, range_succ, map_append, map_singleton, dropLast_concat]
    rfl

lemma index_last (h : r.WF cap) (hc : 0 < r.count) :
    (r.tail + cap - 1) % cap = r.index cap (r.count - 1) := (h.unpush hc).tail_eq

lemma toList_modifyLast (h : r.WF cap) (hc : 0 < r.count) (f : α → α) :
    (r.modifyLast cap f).toList cap =
      (r.toList cap).dropLast ++ [f (r.cells (r.index cap (r.count - 1)))] := by
  obtain ⟨n, hn⟩ := Nat.exists_eq_succ_of_ne_zero hc.ne'
  have hlast : (r.tail + cap - 1) % cap = r.index cap n := by
    rw [index_last h hc, hn]
    rfl
  have hold : ∀ i ∈ List.range n, (r.modifyLast cap f).cells (r.index cap i) =
      r.cells (r.index cap i) := by
    intro i hi
    have hlt := mem_range.1 hi
    have hcap := h.count_le
    have hne : r.index cap i ≠ r.index cap n := by
      intro heq
      have := index_inj (by omega) (by omega) heq
      omega
    simp [modifyLast, hlast, hne]
  have hnew : (r.modifyLast cap f).cells (r.index cap n) = f (r.cells (r.index cap n)) := by
    simp [modifyLast, hlast]
  unfold toList
  change (List.range r.count).map (fun i => (r.modifyLast cap f).cells (r.index cap i)) = _
  rw [hn, range_succ, map_append, map_append, map_singleton,
    map_singleton, dropLast_concat, hnew, map_congr_left hold]
  rfl

/-- A walk over cells that are all different is a walk over the list of their contents. -/
lemma foldl_visit {β : Type*} (f : β → α → β × α) {is : List ℕ} (hnd : is.Nodup) (b : β)
    (c : ℕ → α) :
    let r := is.foldl (visit f) (b, c)
    r.1 = (listWalk f b (is.map c)).1 ∧ is.map r.2 = (listWalk f b (is.map c)).2 ∧
    ∀ j ∉ is, r.2 j = c j := by
  induction is generalizing b c with
  | nil => exact ⟨rfl, rfl, fun _ _ => rfl⟩
  | cons i is ih =>
    obtain ⟨hni, hnd⟩ := nodup_cons.1 hnd
    set t := f b (c i)
    obtain ⟨h1, h2, h3⟩ := ih hnd t.1 (update c i t.2)
    have hmap : is.map (update c i t.2) = is.map c := by
      refine map_congr_left fun j hj => update_of_ne ?_ ..
      rintro rfl
      exact hni hj
    rw [hmap] at h1 h2
    refine ⟨h1, ?_, ?_⟩
    · have hi := h3 i hni
      rw [update_self] at hi
      change (is.foldl (visit f) _).2 i :: is.map (is.foldl (visit f) _).2 = _
      rw [show visit f (b, c) i = (t.1, update c i t.2) from rfl, hi, h2]
      rfl
    · intro j hj
      obtain ⟨hji, hj⟩ := not_or.1 (mt mem_cons.2 hj)
      change (is.foldl (visit f) (visit f (b, c) i)).2 j = _
      rw [show visit f (b, c) i = (t.1, update c i t.2) from rfl, h3 j hj]
      exact update_of_ne hji ..

lemma nodup_indices (h : r.WF cap) : ((List.range r.count).map (r.index cap)).Nodup := by
  refine List.Nodup.map_on ?_ nodup_range
  intro i hi j hj heq
  have hcap := h.count_le
  exact index_inj ((mem_range.1 hi).trans_le hcap) ((mem_range.1 hj).trans_le hcap) heq

lemma toList_walk {β : Type*} (h : r.WF cap) (f : β → α → β × α) (b : β) :
    (r.walk cap f b).2.toList cap = (listWalk f b (r.toList cap)).2 ∧
    (r.walk cap f b).1 = (listWalk f b (r.toList cap)).1 := by
  obtain ⟨h1, h2, -⟩ := foldl_visit f (nodup_indices h) b r.cells
  have hlist : r.toList cap = ((List.range r.count).map (r.index cap)).map r.cells := by
    rw [map_map]
    rfl
  rw [hlist, ← h1, ← h2, map_map]
  exact ⟨rfl, rfl⟩

/-- The cells after the first `n` moves of a removal. -/
lemma foldl_shiftCell (h : r.WF cap) {offset n : ℕ} (hn : offset + n < r.count) {j : ℕ}
    (hj : j < r.count) :
    (List.range' offset n).foldl (r.shiftCell cap) r.cells (r.index cap j) =
      if offset ≤ j ∧ j < offset + n then r.cells (r.index cap (j + 1))
      else r.cells (r.index cap j) := by
  induction n generalizing j with
  | zero => simp [show ¬ (offset ≤ j ∧ j < offset) by omega]
  | succ n ih =>
    have hcap := h.count_le
    rw [List.range'_concat, foldl_concat, Nat.one_mul]
    unfold shiftCell
    rcases eq_or_ne j (offset + n) with rfl | hne
    · rw [update_self]
      change (List.range' offset n).foldl (r.shiftCell cap) r.cells (r.index cap _) = _
      rw [ih (by omega) (by omega), if_neg (by omega), if_pos (by omega)]
    have hidx : r.index cap j ≠ r.index cap (offset + n) := by
      intro heq
      exact hne (index_inj (by omega) (by omega) heq)
    rw [update_of_ne hidx]
    change (List.range' offset n).foldl (r.shiftCell cap) r.cells (r.index cap _) = _
    rw [ih (by omega) hj]
    have hiff : (offset ≤ j ∧ j < offset + n) ↔ (offset ≤ j ∧ j < offset + (n + 1)) := by omega
    simp only [hiff]

lemma WF.removeAt (h : r.WF cap) {offset : ℕ} (ho : offset < r.count) :
    (r.removeAt cap offset).WF cap := by
  refine ⟨h.head_lt, (Nat.sub_le _ _).trans h.count_le, ?_⟩
  change (r.head + r.count - 1) % cap = (r.head + (r.count - 1)) % cap
  congr 1
  omega

lemma toList_removeAt (h : r.WF cap) {offset : ℕ} (ho : offset < r.count) :
    (r.removeAt cap offset).toList cap = (r.toList cap).eraseIdx offset := by
  refine ext_getElem? fun i => ?_
  rw [List.getElem?_eraseIdx]
  have hcount : (r.removeAt cap offset).count = r.count - 1 := rfl
  rcases Nat.lt_or_ge i (r.count - 1) with hi | hi
  · rw [getElem?_toList (by rw [hcount]; exact hi)]
    change some ((List.range' offset (r.count - 1 - offset)).foldl (r.shiftCell cap) r.cells
      (r.index cap i)) = _
    rw [foldl_shiftCell h (by omega) (by omega)]
    split
    · rw [if_neg (by omega), getElem?_toList (by omega)]
    · rw [if_pos (by omega), getElem?_toList (by omega)]
  · rw [List.getElem?_eq_none (by rw [length_toList, hcount]; exact hi)]
    split
    · rw [List.getElem?_eq_none (by rw [length_toList]; omega)]
    · rw [List.getElem?_eq_none (by rw [length_toList]; omega)]

section Map

variable {β : Type*} (f : α → β)

lemma map_push (a : α) : (r.push cap a).map f = (r.map f).push cap (f a) := by
  unfold map push
  rw [comp_update]

lemma foldl_shiftCell_map (is : List ℕ) (c : ℕ → α) :
    f ∘ is.foldl (r.shiftCell cap) c = is.foldl ((r.map f).shiftCell cap) (f ∘ c) := by
  induction is generalizing c with
  | nil => rfl
  | cons i is ih =>
    rw [foldl_cons, foldl_cons, ih]
    congr 1
    unfold shiftCell
    rw [comp_update]
    rfl

lemma map_removeAt (offset : ℕ) :
    (r.removeAt cap offset).map f = (r.map f).removeAt cap offset := by
  unfold removeAt
  rw [← show f ∘ r.cells = (r.map f).cells from rfl, ← foldl_shiftCell_map]
  rfl

end Map

end Ring

end MezonSfu
