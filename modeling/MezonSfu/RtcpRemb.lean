import MezonSfu.Bytes

/-!
The receiver estimated maximum bitrate: a rate as a mantissa and an exponent, packed into the
feedback packet that is sent to a publisher.
-/

namespace MezonSfu.RtcpRemb

open Bytes List

/-- The loop that halves the mantissa; `left` is what the exponent lacks of 63. -/
def normalize : ℕ → ℕ → ℕ → ℕ × ℕ
  | left + 1, mantissa, exponent =>
    if 0x3FFFF < mantissa then normalize left (mantissa / 2) (exponent + 1)
    else (mantissa, exponent)
  | 0, mantissa, exponent => (mantissa, exponent)

def encoded (bitrateBps : UInt64) : ℕ :=
  let r := normalize 63 bitrateBps.toNat 0
  let mantissa := if 0x3FFFF < r.1 then 0x3FFFF else r.1
  r.2 <<< 18 ||| mantissa

variable (senderSsrc : UInt32) (bitrateBps : UInt64) (mediaSsrcs : ℕ → UInt32)
  (mediaSsrcCount : UInt8)

def packet : List UInt8 :=
  [0x8F, 206] ++ (writeBe16 ((20 + mediaSsrcCount.toNat * 4) / 4 - 1) ++
    (writeBe32 senderSsrc.toNat ++ ([0, 0, 0, 0, 82, 69, 77, 66, mediaSsrcCount] ++
      (writeBe24 (encoded bitrateBps) ++
        (range mediaSsrcCount.toNat).flatMap fun i => writeBe32 (mediaSsrcs i).toNat))))

/-- `sfu_rtcp_build_remb`. The array is given by its elements. -/
def buildRemb (cap : ℕ) : Option (List UInt8) :=
  if mediaSsrcCount = 0 ∨ cap < 20 + mediaSsrcCount.toNat * 4 then none
  else some (packet senderSsrc bitrateBps mediaSsrcs mediaSsrcCount)

/-- The halvings keep the rate between the mantissa and its successor, and leave the top bit. -/
lemma normalize_spec {n m e rate : ℕ} (hlow : m * 2 ^ e ≤ rate) (hhigh : rate < (m + 1) * 2 ^ e)
    (hm : m < 2 ^ (18 + n)) :
    let r := normalize n m e
    r.1 * 2 ^ r.2 ≤ rate ∧ rate < (r.1 + 1) * 2 ^ r.2 ∧ r.1 < 2 ^ 18 ∧ r.2 ≤ e + n ∧
      (m < 2 ^ 18 → r = (m, e)) ∧ (2 ^ 18 ≤ m → 2 ^ 17 ≤ r.1) := by
  induction n generalizing m e with
  | zero => exact ⟨hlow, hhigh, hm, le_rfl, fun _ => rfl, fun h => absurd hm h.not_gt⟩
  | succ n ih =>
    unfold normalize
    split_ifs with hbig
    · have hlow' : m / 2 * 2 ^ (e + 1) ≤ rate := by
        rw [pow_succ', ← Nat.mul_assoc]
        exact (Nat.mul_le_mul_right _ (Nat.div_mul_le_self m 2)).trans hlow
      have hhigh' : rate < (m / 2 + 1) * 2 ^ (e + 1) := by
        rw [pow_succ', ← Nat.mul_assoc]
        exact hhigh.trans_le (Nat.mul_le_mul_right _ (by omega))
      rw [← Nat.add_assoc, pow_succ] at hm
      obtain ⟨h1, h2, h3, h4, hsmall, hlarge⟩ := ih hlow' hhigh' (by omega)
      refine ⟨h1, h2, h3, by omega, fun h => by omega, fun _ => ?_⟩
      rcases lt_or_ge (m / 2) (2 ^ 18) with hlt | hge
      · rw [hsmall hlt]
        omega
      · exact hlarge hge
    · exact ⟨hlow, hhigh, by omega, Nat.le_add_right _ _, fun _ => rfl, fun h => by omega⟩

lemma readBe32_flatMap (f : ℕ → UInt32) {n i : ℕ} (h : i < n) :
    readBe32 ((range n).flatMap fun i => writeBe32 (f i).toNat) (i * 4) = (f i).toNat := by
  induction n generalizing f i with
  | zero => exact absurd h (Nat.not_lt_zero i)
  | succ n ih =>
    rw [range_succ_eq_map, flatMap_cons, flatMap_map]
    cases i with
    | zero => exact readBe32_writeBe32 (f 0).toNat_lt
    | succ i =>
      rw [Nat.succ_mul]
      exact ih (fun i => f (i + 1)) (Nat.lt_of_succ_lt_succ h)

/-- The rate lies between the mantissa and its successor, scaled by the exponent. -/
lemma encoded_spec :
    let m := encoded bitrateBps % 2 ^ 18
    let e := encoded bitrateBps / 2 ^ 18
    encoded bitrateBps < 2 ^ 24 ∧ m * 2 ^ e ≤ bitrateBps.toNat ∧
      bitrateBps.toNat < (m + 1) * 2 ^ e ∧ (bitrateBps.toNat < 2 ^ 18 → e = 0) ∧
      (2 ^ 18 ≤ bitrateBps.toNat → 2 ^ 17 ≤ m) := by
  have hlt := bitrateBps.toNat_lt
  obtain ⟨hlow, hhigh, hm, he, hsmall, hlarge⟩ :=
    @normalize_spec 63 bitrateBps.toNat 0 bitrateBps.toNat (by omega) (by omega) (by omega)
  unfold encoded
  generalize normalize 63 bitrateBps.toNat 0 = r at *
  dsimp only
  rw [if_neg (by omega), ← Nat.shiftLeft_add_eq_or_of_lt hm, Nat.shiftLeft_eq]
  have hmod : (r.2 * 2 ^ 18 + r.1) % 2 ^ 18 = r.1 := by omega
  have hdiv : (r.2 * 2 ^ 18 + r.1) / 2 ^ 18 = r.2 := by omega
  rw [hmod, hdiv]
  refine ⟨by omega, hlow, hhigh, fun h => ?_, hlarge⟩
  rw [hsmall h]

/-- **The rate is the best approximation from below** that 18 bits of mantissa give, and the
packet says how long it is and which sources it is about. -/
theorem remb_best_lower (cap : ℕ) (hcount : mediaSsrcCount ≠ 0)
    (hcap : 20 + mediaSsrcCount.toNat * 4 ≤ cap) :
    ∃ packet, buildRemb senderSsrc bitrateBps mediaSsrcs mediaSsrcCount cap = some packet ∧
      (let m := readBe24 packet 17 % 2 ^ 18
       let e := readBe24 packet 17 / 2 ^ 18
       m * 2 ^ e ≤ bitrateBps.toNat ∧ bitrateBps.toNat < (m + 1) * 2 ^ e ∧
         (bitrateBps.toNat < 2 ^ 18 → e = 0) ∧ (2 ^ 18 ≤ bitrateBps.toNat → 2 ^ 17 ≤ m)) ∧
      packet.length = 20 + mediaSsrcCount.toNat * 4 ∧
      readBe16 packet 2 = packet.length / 4 - 1 ∧ byteAt packet 16 = mediaSsrcCount.toNat ∧
      ∀ i < mediaSsrcCount.toNat, readBe32 packet (20 + i * 4) = (mediaSsrcs i).toNat := by
  have hlt := mediaSsrcCount.toNat_lt
  obtain ⟨hfits, hrate⟩ := encoded_spec bitrateBps
  have hread : readBe24 (packet senderSsrc bitrateBps mediaSsrcs mediaSsrcCount) 17 =
      encoded bitrateBps := readBe24_writeBe24 hfits
  have hlength : (packet senderSsrc bitrateBps mediaSsrcs mediaSsrcCount).length =
      20 + mediaSsrcCount.toNat * 4 := by
    simp [packet]
    omega
  refine ⟨_, if_neg (not_or.2 ⟨hcount, hcap.not_gt⟩), by rwa [hread], hlength, ?_, rfl, ?_⟩
  · rw [hlength]
    exact readBe16_writeBe16 (by omega)
  · intro i hi
    rw [Nat.add_comm]
    exact readBe32_flatMap mediaSsrcs hi

theorem remb_best_lower_half_million : ∃ packet,
    buildRemb 1 500001 (fun _ => 7) 1 24 = some packet ∧ readBe24 packet 17 % 2 ^ 18 = 250000 := by
  obtain ⟨packet, hbuild, -⟩ := remb_best_lower 1 500001 (fun _ => 7) 1 24 (by decide) (by decide)
  refine ⟨packet, hbuild, ?_⟩
  cases hbuild
  decide

end MezonSfu.RtcpRemb
