import Mathlib.Data.Nat.Bitwise
import Mathlib.Tactic

/-!
Masks: natural numbers whose set bits are the members of a small set.

A mask is walked from its lowest set bit on, clearing the bit that was met.
-/

namespace MezonSfu.BitMask

open List

/-- The set bits below `w`, from the lowest. -/
def bits (w m : ℕ) : List ℕ := (List.range w).filter m.testBit

/-- The lowest set bit below `w`; zero if there is none. -/
def ctz (w m : ℕ) : ℕ := ((List.range w).find? m.testBit).getD 0

def clearLowest (m : ℕ) : ℕ := m &&& (m - 1)

variable {w m k : ℕ}

lemma mem_bits {i : ℕ} : i ∈ bits w m ↔ i < w ∧ m.testBit i := by
  simp [bits]

@[simp] lemma bits_zero : bits w 0 = [] := by
  simp [bits]

lemma length_bits_le : (bits w m).length ≤ w := by
  have h := (List.range w).length_filter_le m.testBit
  rwa [length_range] at h

lemma exists_lowest (hk : m.testBit k) (hlow : ∀ i < k, m.testBit i = false) :
    ∃ j, m = 2 ^ (k + 1) * j + 2 ^ k := by
  refine ⟨m / 2 ^ (k + 1), ?_⟩
  have hmod : m % 2 ^ (k + 1) = 2 ^ k := by
    apply Nat.eq_of_testBit_eq
    intro i
    rw [Nat.testBit_mod_two_pow, Nat.testBit_two_pow]
    rcases lt_trichotomy i k with hi | rfl | hi
    · rw [hlow i hi, Bool.and_false]
      simp [hi.ne']
    · simp [hk]
    · simp [show ¬ i < k + 1 by omega, hi.ne]
  rw [← hmod, Nat.div_add_mod]

lemma testBit_clearLowest (hk : m.testBit k) (hlow : ∀ i < k, m.testBit i = false)
    (i : ℕ) : (clearLowest m).testBit i = (m.testBit i && decide (i ≠ k)) := by
  obtain ⟨j, hj⟩ := exists_lowest hk hlow
  have hpos : 0 < 2 ^ k := Nat.two_pow_pos k
  have hpred : m - 1 = 2 ^ (k + 1) * j + (2 ^ k - 1) := by omega
  have hlt : 2 ^ k < 2 ^ (k + 1) := Nat.pow_lt_pow_right (by omega) (by omega)
  unfold clearLowest
  rw [Nat.testBit_and, hpred, Nat.testBit_two_pow_mul_add _ (by omega), Nat.testBit_two_pow_sub_one]
  rcases lt_trichotomy i k with hi | rfl | hi
  · rw [hlow i hi]
    simp
  · simp
  · have hm : m.testBit i = j.testBit (i - (k + 1)) := by
      rw [hj, Nat.testBit_two_pow_mul_add _ hlt, if_neg (by omega)]
    rw [if_neg (by omega), hm]
    simp [hi.ne']

/-- **Walking a mask**: the lowest bit comes first, then the rest of the mask. -/
lemma bits_eq_cons (hm : m ≠ 0) (hw : m < 2 ^ w) :
    bits w m = ctz w m :: bits w (clearLowest m) := by
  obtain ⟨i, hi⟩ := Nat.exists_testBit_of_ne_zero hm
  have hiw : i < w := by
    by_contra hle
    rw [Nat.testBit_lt_two_pow (hw.trans_le (Nat.pow_le_pow_right (by omega) (by omega)))] at hi
    cases hi
  obtain ⟨k, t, hcons⟩ : ∃ k t, bits w m = k :: t :=
    exists_cons_of_ne_nil (ne_nil_of_mem (mem_bits.2 ⟨hiw, hi⟩))
  have hctz : ctz w m = k := by
    unfold ctz
    rw [← List.head?_filter]
    change ((bits w m).head?).getD 0 = k
    rw [hcons]
    rfl
  have hkmem : k ∈ bits w m := by rw [hcons]; exact .head _
  have hsorted : (k :: t).Pairwise (· < ·) := by
    rw [← hcons]
    exact pairwise_lt_range.filter _
  have hlow : ∀ i < k, m.testBit i = false := by
    intro i hik
    by_contra hset
    have hmem : i ∈ k :: t := by
      rw [← hcons]
      exact mem_bits.2 ⟨hik.trans (mem_bits.1 hkmem).1, by simpa using hset⟩
    rcases mem_cons.1 hmem with rfl | hit
    · exact lt_irrefl _ hik
    · exact lt_asymm hik ((pairwise_cons.1 hsorted).1 i hit)
  have hrest : bits w (clearLowest m) = (bits w m).filter (fun i => decide (i ≠ k)) := by
    unfold bits
    rw [filter_filter]
    apply filter_congr
    intro i _
    rw [testBit_clearLowest (mem_bits.1 hkmem).2 hlow, Bool.and_comm]
  rw [hctz, hrest, hcons, filter_cons_of_neg (by simp), filter_eq_self.2]
  intro i hit
  simp [((pairwise_cons.1 hsorted).1 i hit).ne']

lemma clearLowest_le : clearLowest m ≤ m := Nat.and_le_left

end MezonSfu.BitMask
