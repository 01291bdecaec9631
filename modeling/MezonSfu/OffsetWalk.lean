import Mathlib.Order.Monotone.Basic
import Mathlib.Tactic

/-!
Walks over the records of a buffer.

A record has a header of fixed size, and `next` gives the offset behind it. The offsets of the
records are the iterates of `next`; a walk looks at one after the other, while a header fits, for
the first that is found.
-/

namespace MezonSfu.OffsetWalk

variable {next next' : ℕ → ℕ} {header len start : ℕ} {found : ℕ → Bool} {off i k : ℕ}

/-- The first record that is found, of at most `n` records from `off` on. -/
def find (next : ℕ → ℕ) (header len : ℕ) (found : ℕ → Bool) : ℕ → ℕ → Option ℕ
  | 0, _ => none
  | n + 1, off =>
    if off + header ≤ len then
      if found off then some off else find next header len found n (next off)
    else none

def offset (next : ℕ → ℕ) (start i : ℕ) : ℕ := next^[i] start

@[simp] lemma offset_zero : offset next start 0 = start := rfl

lemma offset_succ : offset next start (i + 1) = next (offset next start i) :=
  Function.iterate_succ_apply' next i start

section Advances

variable (hnext : ∀ off, off + header ≤ next off)
include hnext

lemma offset_add_le (start i : ℕ) : offset next start i + header ≤ offset next start (i + 1) := by
  rw [offset_succ]
  exact hnext _

lemma offset_strictMono (hheader : 0 < header) (start : ℕ) : StrictMono (offset next start) := by
  apply strictMono_nat_of_lt_succ
  intro i
  have h := offset_add_le hnext start i
  omega

lemma start_le_offset (start i : ℕ) : start ≤ offset next start i := by
  induction i with
  | zero => exact le_rfl
  | succ i ih =>
    have h := offset_add_le hnext start i
    omega

lemma find_eq_some_iff_fuel (n start off : ℕ) :
    find next header len found n start = some off ↔
      ∃ k < n, off = offset next start k ∧ off + header ≤ len ∧ found off ∧
        ∀ j < k, found (offset next start j) = false := by
  induction n generalizing start with
  | zero => exact ⟨nofun, fun ⟨k, hk, _⟩ => absurd hk (Nat.not_lt_zero k)⟩
  | succ n ih =>
    unfold find
    by_cases hfit : start + header ≤ len
    · rw [if_pos hfit]
      by_cases hf : found start
      · rw [if_pos hf, Option.some.injEq]
        constructor
        · rintro rfl
          exact ⟨0, Nat.succ_pos n, rfl, hfit, hf, fun j hj => absurd hj (Nat.not_lt_zero j)⟩
        rintro ⟨k, -, hoff, -, -, hbefore⟩
        cases k with
        | zero => exact hoff.symm
        | succ k =>
          have h := hbefore 0 (Nat.succ_pos k)
          rw [offset_zero, hf] at h
          cases h
      · rw [if_neg hf, ih]
        constructor
        · rintro ⟨k, hk, hoff, hlen, hfound, hbefore⟩
          refine ⟨k + 1, Nat.succ_lt_succ hk, hoff, hlen, hfound, fun j hj => ?_⟩
          cases j with
          | zero => exact Bool.eq_false_iff.2 hf
          | succ j => exact hbefore j (Nat.lt_of_succ_lt_succ hj)
        · rintro ⟨k, hk, hoff, hlen, hfound, hbefore⟩
          cases k with
          | zero =>
            rw [hoff] at hfound
            exact absurd hfound hf
          | succ k =>
            exact ⟨k, Nat.lt_of_succ_lt_succ hk, hoff, hlen, hfound,
              fun j hj => hbefore (j + 1) (Nat.succ_lt_succ hj)⟩
    · rw [if_neg hfit]
      refine ⟨nofun, ?_⟩
      rintro ⟨k, -, hoff, hlen, -⟩
      have h := start_le_offset hnext start k
      omega

lemma find_eq_some_iff (hheader : 0 < header) {n : ℕ} (hn : len ≤ n) (start off : ℕ) :
    find next header len found n start = some off ↔
      ∃ k, off = offset next start k ∧ off + header ≤ len ∧ found off ∧
        ∀ j < k, found (offset next start j) = false := by
  rw [find_eq_some_iff_fuel hnext]
  constructor
  · rintro ⟨k, -, h⟩
    exact ⟨k, h⟩
  · rintro ⟨k, hoff, hlen, h⟩
    have hk : k ≤ offset next start k := (offset_strictMono hnext hheader start).le_apply
    exact ⟨k, by omega, hoff, hlen, h⟩

lemma offset_congr {m : ℕ} (h : ∀ off, start ≤ off → off + header ≤ m → next' off = next off)
    (hk : offset next start k ≤ m) (hik : i ≤ k) (hmono : StrictMono (offset next start)) :
    offset next' start i = offset next start i := by
  induction i with
  | zero => rfl
  | succ i ih =>
    have hle := hmono.monotone hik
    have hadd := offset_add_le hnext start i
    rw [offset_succ, offset_succ, ih (by omega)]
    exact h _ (start_le_offset hnext start i) (by omega)

end Advances

end MezonSfu.OffsetWalk
