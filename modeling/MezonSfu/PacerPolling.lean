import MezonSfu.Pacer

/-!
How much a pacer is filled over an interval, for every way of querying it meanwhile.

Each refill drops the part of a byte it cannot pay out and still moves the time of the last
refill. One query at the end gives the most, a query every microsecond the least.
-/

namespace MezonSfu.Paced.Pacer

def refills (p : Pacer) (times : List ℤ) : Pacer := times.foldl refill p

def byteRate (p : Pacer) : ℕ := p.pacingBps / 8

def elapsed (p : Pacer) (now : ℤ) : ℕ := (now - p.lastRefillUs).toNat

def filled (p : Pacer) (tokens : ℕ) : ℤ :=
  if tokens = 0 then p.balanceBytes else min (p.balanceBytes + tokens) p.bucketCapBytes

/-- All schedules of queries with the same first and last one leave the same balance. -/
def PollingFree (p : Pacer) (start stop : ℤ) : Prop :=
  ∀ times times' : List ℤ, (start :: (times ++ [stop])).Pairwise (· ≤ ·) →
    (start :: (times' ++ [stop])).Pairwise (· ≤ ·) →
    (p.refills (start :: (times ++ [stop]))).balanceBytes =
      (p.refills (start :: (times' ++ [stop]))).balanceBytes

variable {p : Pacer} {now start stop : ℤ} {times : List ℤ}

lemma refill_eq (h : 0 < p.lastRefillUs) :
    p.refill now = { p with
      lastRefillUs := max p.lastRefillUs now
      balanceBytes := p.filled (p.elapsed now * p.byteRate / 1000000) } := by
  unfold refill
  rw [if_neg h.ne']
  split_ifs with hnow
  · have hzero : p.elapsed now = 0 := Int.toNat_of_nonpos (by omega)
    simp [hzero, filled, hnow]
  have htokens : ((p.pacingBps / 8 : ℕ) : ℤ) * (now - p.lastRefillUs) / 1000000 =
      (p.elapsed now * p.byteRate / 1000000 : ℕ) := by
    have he : ((now - p.lastRefillUs).toNat : ℤ) = now - p.lastRefillUs :=
      Int.toNat_of_nonneg (by omega)
    rw [mul_comm, ← he]
    rfl
  rw [max_eq_right (by omega), htokens]
  generalize p.elapsed now * p.byteRate / 1000000 = tokens
  obtain rfl | hpos := tokens.eq_zero_or_pos
  · simp [filled]
  · simp [filled, hpos.ne']

lemma filled_filled (last : ℤ) (a b : ℕ) :
    filled { p with lastRefillUs := last, balanceBytes := p.filled a } b = p.filled (a + b) := by
  simp only [filled]
  split_ifs <;> omega

/-- **Between the bounds**: whatever the queries before the last one are, the tokens are at least
those of every microsecond and at most those of the interval. -/
lemma refills_concat (h : 0 < p.lastRefillUs) (hle : ∀ t ∈ times, t ≤ stop) :
    ∃ tokens, (p.refills (times ++ [stop])).balanceBytes = p.filled tokens ∧
      p.elapsed stop * (p.byteRate / 1000000) ≤ tokens ∧
      tokens ≤ p.elapsed stop * p.byteRate / 1000000 := by
  induction times generalizing p with
  | nil =>
    exact ⟨_, congrArg balanceBytes (refill_eq h), Nat.mul_div_le_mul_div_assoc .., le_rfl⟩
  | cons t times ih =>
    have ht := hle t List.mem_cons_self
    set q := p.refill t with hq
    rw [refill_eq h] at hq
    obtain ⟨tokens, hb, hlo, hhi⟩ := @ih q (by rw [hq]; exact lt_max_of_lt_left h)
      fun t ht => hle t (List.mem_cons_of_mem _ ht)
    have hsum : p.elapsed stop = p.elapsed t + q.elapsed stop := by
      simp only [hq, elapsed]
      omega
    have hrate : q.byteRate = p.byteRate := by rw [hq]; rfl
    rw [hrate] at hlo hhi
    refine ⟨p.elapsed t * p.byteRate / 1000000 + tokens, ?_, ?_, ?_⟩
    · rw [← filled_filled (max p.lastRefillUs t), ← hq]
      exact hb
    all_goals rw [hsum, Nat.add_mul]
    · exact Nat.add_le_add (Nat.mul_div_le_mul_div_assoc ..) hlo
    · exact (Nat.add_le_add_left hhi _).trans (Nat.div_add_div_le_add_div ..)

lemma refills_every (h : 0 < p.lastRefillUs) (n : ℕ) :
    p.refills ((List.range n).map fun i : ℕ => p.lastRefillUs + (i + 1)) = { p with
      lastRefillUs := p.lastRefillUs + n
      balanceBytes := p.filled (n * (p.byteRate / 1000000)) } := by
  induction n with
  | zero => simp [refills, filled]
  | succ n ih =>
    rw [List.range_succ, List.map_append, refills, List.foldl_append]
    change refill (p.refills _) _ = _
    have helapsed : (p.lastRefillUs + (n + 1) - (p.lastRefillUs + n)).toNat = 1 := by omega
    rw [ih, refill_eq (by simp only; omega), filled_filled, elapsed, helapsed, one_mul,
      max_eq_right (by simp only; omega), Nat.add_mul, one_mul]
    rfl

lemma pairwise_every {last : ℤ} (h : start ≤ last) (n : ℕ) :
    (start :: (List.range n).map fun i : ℕ => last + (i + 1)).Pairwise (· ≤ ·) := by
  refine List.pairwise_cons.2 ⟨?_, List.pairwise_map.2 ?_⟩
  · simp only [List.mem_map]
    rintro _ ⟨i, -, rfl⟩
    omega
  · exact List.pairwise_lt_range.imp fun {i j} hij => by omega

lemma mul_div_eq_add (e r : ℕ) :
    e * r / 1000000 = e * (r / 1000000) + e * (r % 1000000) / 1000000 := by
  conv_lhs => rw [← Nat.div_add_mod r 1000000, Nat.mul_add, Nat.mul_left_comm]
  exact Nat.mul_add_div (by decide) ..

/-- More tokens change nothing exactly where the bucket is full. -/
lemma filled_add_eq_iff (a b : ℕ) :
    p.filled (a + b) = p.filled a ↔ b = 0 ∨ p.bucketCapBytes ≤ p.balanceBytes + a ∧
      (p.balanceBytes ≤ p.bucketCapBytes ∨ 0 < a) := by
  unfold filled
  split_ifs <;> omega

/-- **When polling does not matter** to a pacer from its last refill on: a query every microsecond
loses less than a byte in the interval, or fills the bucket as well. -/
theorem pollingFree_iff (hpos : 0 < p.lastRefillUs) :
    PollingFree p p.lastRefillUs stop ↔
      p.elapsed stop * (p.byteRate % 1000000) < 1000000 ∨
      p.bucketCapBytes ≤ p.balanceBytes + (p.elapsed stop * (p.byteRate / 1000000) : ℕ) ∧
      (p.balanceBytes ≤ p.bucketCapBytes ∨ 0 < p.elapsed stop * (p.byteRate / 1000000)) := by
  have hsame : p.refill p.lastRefillUs = p := by
    unfold refill
    rw [if_neg hpos.ne', if_pos le_rfl]
  unfold PollingFree
  change (∀ times times', _ → _ → ((p.refill _).refills _).balanceBytes =
    ((p.refill _).refills _).balanceBytes) ↔ _
  rw [hsame]
  have htokens := mul_div_eq_add (p.elapsed stop) p.byteRate
  rw [← Nat.div_eq_zero_iff_lt (by decide), ← filled_add_eq_iff, ← htokens]
  constructor
  · intro h
    obtain h0 | ⟨n, hn⟩ : p.elapsed stop = 0 ∨ ∃ n, p.elapsed stop = n + 1 := by
      cases p.elapsed stop <;> simp
    · simp [h0]
    have hstop : stop = p.lastRefillUs + (n + 1) := by
      unfold elapsed at hn
      omega
    have hevery := refills_every hpos (n + 1)
    rw [List.range_succ, List.map_append] at hevery
    calc
      p.filled (p.elapsed stop * p.byteRate / 1000000) = (p.refill stop).balanceBytes :=
        (congrArg balanceBytes (refill_eq hpos)).symm
      _ = _ := h [] ((List.range n).map fun i : ℕ => p.lastRefillUs + (i + 1)) (by simp; omega)
        (by simpa [hstop, List.range_succ] using pairwise_every le_rfl (n + 1))
      _ = p.filled (p.elapsed stop * (p.byteRate / 1000000)) := by
        rw [hn, hstop]
        exact congrArg balanceBytes hevery
  · intro h times times' hs hs'
    have hfull : ∀ {times : List ℤ}, (p.lastRefillUs :: (times ++ [stop])).Pairwise (· ≤ ·) →
        (p.refills (times ++ [stop])).balanceBytes =
          p.filled (p.elapsed stop * (p.byteRate / 1000000)) := by
      intro times hs
      obtain ⟨tokens, hb, hlo, hhi⟩ := refills_concat hpos fun t ht =>
        (List.pairwise_append.1 hs.of_cons).2.2 t ht stop (List.mem_singleton_self _)
      obtain ⟨b, rfl⟩ := Nat.exists_eq_add_of_le hlo
      rw [hb, filled_add_eq_iff]
      rw [htokens, filled_add_eq_iff] at h
      omega
    exact (hfull hs).trans (hfull hs').symm

/-- At eight megabits a second a byte is paid out every microsecond. -/
theorem pollingFree_eight_megabits : PollingFree ⟨true, 8000000, 0, 10000, 0, 1⟩ 1 5000 :=
  (pollingFree_iff (p := ⟨true, 8000000, 0, 10000, 0, 1⟩) (by decide)).2 (by decide)

/-- At one megabit two queries, eight microseconds apart, pay out one byte; with a query in the
middle it is lost. -/
theorem polling_loses_byte : ¬ PollingFree ⟨true, 1000000, 0, 1500, 0, 1⟩ 1 9 := by
  intro h
  exact absurd (h [] [5] (by decide) (by decide)) (by decide)

end MezonSfu.Paced.Pacer
