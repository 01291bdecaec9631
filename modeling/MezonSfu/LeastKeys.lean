import Mathlib.Data.Finset.Sort
import Mathlib.Data.List.TakeWhile
import Mathlib.Tactic

/-!
The `n` least elements of a set, kept while its elements come in any order.

`consider` is a bounded insertion sort: an element that is there already is skipped, and when the
list is full the last element gives way to a smaller one. In whatever order they come, the list is
the first `n` elements of the sorted set.
-/

namespace MezonSfu.LeastKeys

open List

variable {α : Type*} [LinearOrder α] {n : ℕ} {s : Finset α} {l : List α} {x : α}

/-- `x` is moved down past the larger elements. -/
def insertDown (x : α) (l : List α) : List α :=
  let larger := l.reverse.takeWhile fun y => decide (x < y)
  l.take (l.length - larger.length) ++ x :: larger.reverse

def consider (n : ℕ) (l : List α) (x : α) : List α :=
  if x ∈ l then l
  else if l.length = n ∧ l.getLast?.all (fun y => !decide (x < y)) then l
  else insertDown x (if l.length < n then l else l.dropLast)

/-- The list holds the `n` least elements of the set, in order. -/
structure Least (n : ℕ) (s : Finset α) (l : List α) : Prop where
  sorted : l.Pairwise (· < ·)
  sub : ∀ a ∈ l, a ∈ s
  below : ∀ a ∈ l, ∀ b ∈ s, b ∉ l → a < b
  length_le : l.length ≤ n
  full : l.length = n ∨ ∀ b ∈ s, b ∈ l

lemma least_nil (n : ℕ) : Least n (∅ : Finset α) [] :=
  ⟨.nil, nofun, nofun, Nat.zero_le n, .inr nofun⟩

lemma Least.eq (h : Least n s l) : l = s.sort.take n := by
  -- the sorted set is the list followed by what is not in it
  have hrest : s.sort = l ++ (s \ l.toFinset).sort := by
    symm
    apply List.Perm.eq_of_pairwise (fun a b _ _ => le_antisymm)
    · rw [pairwise_append]
      refine ⟨h.sorted.imp le_of_lt, Finset.pairwise_sort _ _, ?_⟩
      intro a ha b hb
      rw [Finset.mem_sort, Finset.mem_sdiff, mem_toFinset] at hb
      exact (h.below a ha b hb.1 hb.2).le
    · exact Finset.pairwise_sort _ _
    · rw [perm_ext_iff_of_nodup _ (Finset.sort_nodup _ _)]
      · intro a
        rw [mem_append, Finset.mem_sort, Finset.mem_sort, Finset.mem_sdiff, mem_toFinset]
        have := h.sub a
        tauto
      · refine List.Nodup.append (h.sorted.imp ne_of_lt) (Finset.sort_nodup _ _) ?_
        intro a ha hb
        rw [Finset.mem_sort, Finset.mem_sdiff, mem_toFinset] at hb
        exact hb.2 ha
  rcases h.full with hlen | hall
  · rw [hrest, ← hlen, take_left]
  have hempty : s \ l.toFinset = ∅ := by
    rw [Finset.sdiff_eq_empty_iff_subset]
    intro b hb
    exact mem_toFinset.2 (hall b hb)
  rw [hrest, hempty, Finset.sort_empty, append_nil, take_of_length_le h.length_le]

section

variable (hs : l.Pairwise (· < ·))

include hs

lemma insertDown_split (hx : x ∉ l) :
    ∃ lower larger, l = lower ++ larger ∧ insertDown x l = lower ++ x :: larger ∧
      (∀ a ∈ lower, a < x) ∧ ∀ a ∈ larger, x < a := by
  set p : α → Bool := fun y => decide (x < y) with hp
  set r := l.reverse.takeWhile p
  have hl : l = (l.reverse.dropWhile p).reverse ++ r.reverse := by
    rw [← reverse_append, takeWhile_append_dropWhile, reverse_reverse]
  refine ⟨(l.reverse.dropWhile p).reverse, r.reverse, hl, ?_, ?_, ?_⟩
  · unfold insertDown
    dsimp only
    have hlen := congrArg List.length hl
    rw [length_append, @length_reverse _ r] at hlen
    congr 1
    calc l.take (l.length - r.length)
        = l.take (l.reverse.dropWhile p).reverse.length := by rw [hlen, Nat.add_sub_cancel]
      _ = (l.reverse.dropWhile p).reverse := by
        nth_rewrite 2 [hl]
        exact take_left
  · intro a ha
    rw [mem_reverse] at ha
    have hdown : l.reverse.Pairwise (· > ·) := pairwise_reverse.2 hs
    have hmem : a ∈ l := mem_reverse.1 ((dropWhile_sublist p).mem ha)
    -- the first element that is not larger is below `x`, and the rest is below it
    have hne : l.reverse.dropWhile p ≠ [] := ne_nil_of_mem ha
    obtain ⟨b, rest, hb⟩ := exists_cons_of_ne_nil hne
    have hnot : ¬ p b := by
      have := head_dropWhile_not p hne
      simp only [hb, head_cons] at this
      rw [this]
      exact Bool.false_ne_true
    rw [hp, decide_eq_true_eq, not_lt] at hnot
    have hpair := hdown.sublist (dropWhile_sublist p)
    rw [hb, pairwise_cons] at hpair
    rw [hb] at ha
    have hab : a ≤ b := by
      rcases mem_cons.1 ha with rfl | ha
      · exact le_rfl
      · exact (hpair.1 a ha).le
    exact lt_of_le_of_ne (hab.trans hnot) fun he => hx (he ▸ hmem)
  · intro a ha
    rw [mem_reverse] at ha
    have := mem_takeWhile_imp ha
    rwa [hp, decide_eq_true_eq] at this

lemma mem_insertDown (hx : x ∉ l) {a : α} : a ∈ insertDown x l ↔ a = x ∨ a ∈ l := by
  obtain ⟨lower, larger, hl, hi, -, -⟩ := insertDown_split hs hx
  rw [hi, hl, mem_append, mem_cons, mem_append]
  tauto

lemma length_insertDown (hx : x ∉ l) : (insertDown x l).length = l.length + 1 := by
  obtain ⟨lower, larger, hl, hi, -, -⟩ := insertDown_split hs hx
  rw [hi, hl, length_append, length_cons, length_append]
  omega

lemma sorted_insertDown (hx : x ∉ l) : (insertDown x l).Pairwise (· < ·) := by
  obtain ⟨lower, larger, hl, hi, hlow, hlarge⟩ := insertDown_split hs hx
  rw [hl, pairwise_append] at hs
  rw [hi, pairwise_append, pairwise_cons]
  refine ⟨hs.1, ⟨hlarge, hs.2.1⟩, ?_⟩
  exact fun a ha => forall_mem_cons.2 ⟨hlow a ha, hs.2.2 a ha⟩

end

lemma Least.known (h : Least n s l) (hx : x ∈ l) : Least n (insert x s) l := by
  rw [Finset.insert_eq_of_mem (h.sub x hx)]
  exact h

lemma Least.keep (h : Least n s l) (hlen : l.length = n) (hx : ∀ a ∈ l, a < x) :
    Least n (insert x s) l := by
  refine ⟨h.sorted, fun a ha => Finset.mem_insert_of_mem (h.sub a ha), ?_, h.length_le, .inl hlen⟩
  intro a ha b hb hnot
  rcases Finset.mem_insert.1 hb with rfl | hb
  · exact hx a ha
  · exact h.below a ha b hb hnot

lemma Least.grow (h : Least n s l) (hlen : l.length < n) (hx : x ∉ l) :
    Least n (insert x s) (insertDown x l) := by
  have hall : ∀ b ∈ s, b ∈ l := h.full.resolve_left hlen.ne
  have hin : ∀ b ∈ insert x s, b ∈ insertDown x l := by
    intro b hb
    rw [mem_insertDown h.sorted hx]
    exact (Finset.mem_insert.1 hb).imp_right (hall b)
  refine ⟨sorted_insertDown h.sorted hx, ?_, fun a _ b hb hnot => absurd (hin b hb) hnot, ?_,
    .inr hin⟩
  · intro a ha
    rw [mem_insertDown h.sorted hx] at ha
    exact Finset.mem_insert.2 (ha.imp_right (h.sub a))
  · rw [length_insertDown h.sorted hx]
    exact hlen

lemma Least.evict {y : α} (h : Least n s (l ++ [y])) (hlen : (l ++ [y]).length = n) (hxy : x < y)
    (hx : x ∉ l) : Least n (insert x s) (insertDown x l) := by
  obtain ⟨hs, -, hlast⟩ := pairwise_append.1 h.sorted
  have hbelow : ∀ a ∈ l, a < y := fun a ha => hlast a ha y (.head _)
  rw [length_append, length_singleton] at hlen
  refine ⟨sorted_insertDown hs hx, ?_, ?_, ?_, .inl ?_⟩
  · intro a ha
    rw [mem_insertDown hs hx] at ha
    exact Finset.mem_insert.2 (ha.imp_right fun ha => h.sub a (mem_append_left _ ha))
  · intro a ha b hb hnot
    rw [mem_insertDown hs hx] at ha hnot
    rw [not_or] at hnot
    have hb' : b ∈ s := (Finset.mem_insert.1 hb).resolve_left hnot.1
    -- what is outside is the evicted element, or it was outside before
    have hyb : y ≤ b := by
      by_cases hb'' : b ∈ l ++ [y]
      · rcases mem_append.1 hb'' with hin | hin
        · exact absurd hin hnot.2
        · rw [mem_singleton.1 hin]
      · exact (h.below y (mem_append_right _ (.head _)) b hb' hb'').le
    rcases ha with rfl | ha
    · exact hxy.trans_le hyb
    · exact (hbelow a ha).trans_le hyb
  · rw [length_insertDown hs hx]
    exact hlen.le
  · rw [length_insertDown hs hx]
    exact hlen

/-- **Considering an element keeps the `n` least ones.** -/
lemma Least.consider (h : Least n s l) (x : α) : Least n (insert x s) (consider n l x) := by
  unfold LeastKeys.consider
  split
  · rename_i hx
    exact h.known hx
  rename_i hx
  split
  · rename_i hfull
    obtain ⟨hlen, hlast⟩ := hfull
    apply h.keep hlen
    intro a ha
    rcases eq_nil_or_concat' l with rfl | ⟨l', y, rfl⟩
    · cases ha
    rw [List.getLast?_concat, Option.all_some, Bool.not_eq_true', decide_eq_false_iff_not,
      not_lt] at hlast
    obtain ⟨-, -, hl'⟩ := pairwise_append.1 h.sorted
    have hay : a ≤ y := by
      rcases mem_append.1 ha with ha | ha
      · exact (hl' a ha y (.head _)).le
      · rw [mem_singleton.1 ha]
    exact lt_of_le_of_ne (hay.trans hlast) fun he => hx (he ▸ ha)
  · rename_i hroom
    split
    · rename_i hlt
      exact h.grow hlt hx
    rename_i hlt
    have hlen : l.length = n := Nat.le_antisymm h.length_le (Nat.not_lt.1 hlt)
    rcases eq_nil_or_concat' l with rfl | ⟨l', y, rfl⟩
    · exact absurd ⟨hlen, rfl⟩ hroom
    · rw [List.getLast?_concat, Option.all_some, Bool.not_eq_true', decide_eq_false_iff_not,
        not_and, not_not] at hroom
      rw [dropLast_concat]
      exact h.evict hlen (hroom hlen) fun hin => hx (mem_append_left _ hin)

end MezonSfu.LeastKeys
