import MezonSfu.Pacer
import MezonSfu.Runs

/-!
The budget of retransmissions in the pacer of a subscriber: a bucket of bytes that fills at a
quarter of the pacing rate.

A retransmission is charged when it is requested and refunded if it is not sent after all. Its
potential is what it holds, with what the rest of the interval can still add.
-/

namespace MezonSfu.Paced

/-- The part of `sfu_pacer_t` that bounds retransmissions. Times are those of the monotonic
clock. -/
structure RtxBudget where
  active : Bool
  rtxBudgetBps : ℕ
  rtxBudgetBytes : ℤ
  rtxBudgetCapBytes : ℤ
  rtxLastRefillUs : ℕ
deriving DecidableEq

inductive RtxOp
  | allow (bytes nowUs : ℕ)
  | refund (bytes : ℕ)
  | setRate (bps nowUs : ℕ)
deriving DecidableEq

namespace RtxBudget

def init : RtxBudget := ⟨false, 0, 0, 0, 0⟩

def rateOf (bps : ℕ) : ℕ := bps * 5 / 2 / 4 % 2 ^ 32

def capOf (rate : ℕ) : ℤ := (max (rate / 8 * Pacer.burstUs / 1000000) Pacer.minBucketBytes : ℕ)

def tokens (rate elapsedUs : ℕ) : ℕ := rate / 8 * elapsedUs / 1000000

section

variable (p : RtxBudget)

def setRate (bps nowUs : ℕ) : RtxBudget :=
  if bps = 0 then { p with active := false }
  else
    let cap := capOf (rateOf bps)
    let p := { p with rtxBudgetBps := rateOf bps, rtxBudgetCapBytes := cap }
    if p.active then { p with rtxBudgetBytes := min p.rtxBudgetBytes cap }
    else { p with rtxBudgetBytes := cap, rtxLastRefillUs := nowUs, active := true }

/-- The refill of `sfu_pacer_rtx_allow`. -/
def rtxRefill (nowUs : ℕ) : RtxBudget :=
  if p.rtxLastRefillUs = 0 then { p with rtxLastRefillUs := nowUs }
  else if p.rtxLastRefillUs < nowUs then
    let tokens := tokens p.rtxBudgetBps (nowUs - p.rtxLastRefillUs)
    { p with
      rtxLastRefillUs := nowUs
      rtxBudgetBytes :=
        if 0 < tokens then min (p.rtxBudgetBytes + tokens) p.rtxBudgetCapBytes
        else p.rtxBudgetBytes }
  else p

def rtxAllow (bytes nowUs : ℕ) : RtxBudget × Bool :=
  if p.active then
    let p := p.rtxRefill nowUs
    if p.rtxBudgetBytes < bytes then (p, false)
    else ({ p with rtxBudgetBytes := p.rtxBudgetBytes - bytes }, true)
  else (p, true)

def rtxRefund (bytes : ℕ) : RtxBudget :=
  if p.active = false ∨ bytes = 0 then p
  else { p with rtxBudgetBytes := min (p.rtxBudgetBytes + bytes) p.rtxBudgetCapBytes }

def step : RtxOp → RtxBudget
  | .allow bytes nowUs => (p.rtxAllow bytes nowUs).1
  | .refund bytes => p.rtxRefund bytes
  | .setRate bps nowUs => p.setRate bps nowUs

def run : List RtxOp → RtxBudget := Runs.run step init

/-- The bytes an operation takes: those it is allowed, less those it gives back. -/
def cost : RtxOp → ℤ
  | .allow bytes nowUs => if (p.rtxAllow bytes nowUs).2 then bytes else 0
  | .refund bytes => -bytes
  | .setRate _ _ => 0

end

/-- The bytes allowed by operations, less those refunded. -/
def spent : RtxBudget → List RtxOp → ℤ
  | _, [] => 0
  | p, op :: ops => p.cost op + spent (p.step op) ops

end RtxBudget

def RtxOp.KeepsRate (rate : ℕ) : RtxOp → Prop
  | .setRate bps _ => bps ≠ 0 ∧ RtxBudget.rateOf bps = rate
  | _ => True

/-- The operation is one of the time between `fromUs` and `toUs`. -/
def RtxOp.Within (fromUs toUs : ℕ) : RtxOp → Prop
  | .allow _ nowUs => fromUs ≤ nowUs ∧ nowUs ≤ toUs
  | _ => True

instance (rate : ℕ) (op : RtxOp) : Decidable (op.KeepsRate rate) := by
  cases op <;> (unfold RtxOp.KeepsRate; infer_instance)

instance (fromUs toUs : ℕ) (op : RtxOp) : Decidable (op.Within fromUs toUs) := by
  cases op <;> (unfold RtxOp.Within; infer_instance)

namespace RtxBudget

/-- The budget is in its bounds, and the bound of a pacer that is on is the one of its rate. -/
structure WF (p : RtxBudget) : Prop where
  nonneg : 0 ≤ p.rtxBudgetBytes
  le_cap : p.rtxBudgetBytes ≤ p.rtxBudgetCapBytes
  cap : p.active = true → p.rtxBudgetCapBytes = capOf p.rtxBudgetBps

/-- The two parts of one pacer: both are on or off, and retransmissions have a quarter of the pacing
rate. -/
structure Quarters (p : RtxBudget) (q : Pacer) : Prop where
  active : p.active = q.active
  rate : q.active = true → p.rtxBudgetBps = q.pacingBps / 4

variable {p : RtxBudget} {bytes nowUs fromUs toUs : ℕ}

/-- `sfu_pacer_set_rate` sets both parts. -/
theorem Quarters.setRate {q : Pacer} (h : p.Quarters q) {bps : ℕ} (hb : bps * 5 / 2 < 2 ^ 32) :
    (p.setRate bps nowUs).Quarters (q.setRate bps nowUs) := by
  have hquarter : rateOf bps = bps * 5 / 2 % 2 ^ 32 / 4 := by
    unfold rateOf
    omega
  unfold RtxBudget.setRate Pacer.setRate
  dsimp only
  rw [← h.active]
  split_ifs
  · exact ⟨rfl, nofun⟩
  · exact ⟨rfl, fun _ => hquarter⟩
  · exact ⟨rfl, fun _ => hquarter⟩

lemma capOf_nonneg (rate : ℕ) : 0 ≤ capOf rate := by
  unfold capOf
  positivity

lemma tokens_add_le (rate a b : ℕ) : tokens rate a + tokens rate b ≤ tokens rate (a + b) := by
  unfold tokens
  rw [Nat.mul_add]
  omega

lemma tokens_mono (rate : ℕ) {a b : ℕ} (h : a ≤ b) : tokens rate a ≤ tokens rate b := by
  unfold tokens
  gcongr

/-- What a refill does: it adds the bytes of the time since the one before, if there was one. -/
lemma rtxRefill_spec (p : RtxBudget) (nowUs : ℕ) : ∃ bytes, p.rtxRefill nowUs = { p with
      rtxBudgetBytes := bytes
      rtxLastRefillUs := if p.rtxLastRefillUs = 0 then nowUs else max p.rtxLastRefillUs nowUs } ∧
    min p.rtxBudgetBytes p.rtxBudgetCapBytes ≤ bytes ∧
    bytes ≤ max p.rtxBudgetBytes p.rtxBudgetCapBytes ∧
    bytes ≤ p.rtxBudgetBytes + if p.rtxLastRefillUs = 0 then 0
      else tokens p.rtxBudgetBps (nowUs - p.rtxLastRefillUs) := by
  unfold rtxRefill
  dsimp only
  split_ifs with h0 hlt htok
  · exact ⟨p.rtxBudgetBytes, rfl, by omega⟩
  · exact ⟨_, by rw [max_eq_right hlt.le], by omega⟩
  · exact ⟨p.rtxBudgetBytes, by rw [max_eq_right hlt.le], by omega⟩
  · exact ⟨p.rtxBudgetBytes, by rw [max_eq_left (by omega)], by omega⟩

lemma WF.rtxRefill (h : p.WF) (nowUs : ℕ) : (p.rtxRefill nowUs).WF := by
  obtain ⟨h0, hcap, ha⟩ := h
  obtain ⟨bytes, hp, hlow, hhigh, -⟩ := rtxRefill_spec p nowUs
  rw [hp]
  exact ⟨by dsimp only; omega, by dsimp only; omega, ha⟩

lemma WF.step (h : p.WF) (op : RtxOp) : (p.step op).WF := by
  cases op with
  | allow bytes nowUs =>
    obtain ⟨h0, hcap, ha⟩ := h.rtxRefill nowUs
    simp only [RtxBudget.step, rtxAllow]
    split_ifs with hact hb
    · exact ⟨h0, hcap, ha⟩
    · exact ⟨by dsimp only; omega, by dsimp only; omega, ha⟩
    · exact h
  | refund bytes =>
    obtain ⟨h0, hcap, ha⟩ := h
    simp only [RtxBudget.step, rtxRefund]
    split_ifs
    · exact ⟨h0, hcap, ha⟩
    · exact ⟨by dsimp only; omega, by dsimp only; omega, ha⟩
  | setRate bps nowUs =>
    have hpos := capOf_nonneg (rateOf bps)
    obtain ⟨h0, hcap, -⟩ := h
    simp only [RtxBudget.step, RtxBudget.setRate]
    split_ifs
    · exact ⟨h0, hcap, nofun⟩
    · exact ⟨by dsimp only; omega, by dsimp only; omega, fun _ => rfl⟩
    · exact ⟨hpos, le_rfl, fun _ => rfl⟩

lemma wf_run (ops : List RtxOp) : (run ops).WF :=
  Runs.run_inv step (fun _ op h => h.step op) ⟨le_rfl, le_rfl, nofun⟩ ops

lemma setRate_of_keeps (h : p.WF) (ha : p.active) {bps : ℕ} (hb : bps ≠ 0)
    (hr : rateOf bps = p.rtxBudgetBps) : p.setRate bps nowUs = p := by
  have hcap := h.cap ha
  have hmin := min_eq_left h.le_cap
  cases p
  simp_all [setRate]

lemma step_keeps (h : p.WF) (ha : p.active) {op : RtxOp} (hk : op.KeepsRate p.rtxBudgetBps) :
    (p.step op).active ∧ (p.step op).rtxBudgetBps = p.rtxBudgetBps := by
  cases op with
  | allow bytes nowUs =>
    simp only [step, rtxAllow, rtxRefill]
    split_ifs <;> exact ⟨ha, rfl⟩
  | refund bytes =>
    simp only [step, rtxRefund]
    split_ifs <;> exact ⟨ha, rfl⟩
  | setRate bps nowUs =>
    rw [step, setRate_of_keeps h ha hk.1 hk.2]
    exact ⟨ha, rfl⟩

/-- What the bucket holds and what the rest of the interval adds to it. The first refill reaches
the cap at most, however long the pause before it. -/
def potential (p : RtxBudget) (fromUs toUs : ℕ) : ℤ :=
  if p.rtxLastRefillUs = 0 ∨ fromUs ≤ p.rtxLastRefillUs then
    p.rtxBudgetBytes + tokens p.rtxBudgetBps (toUs - max fromUs p.rtxLastRefillUs)
  else p.rtxBudgetCapBytes + tokens p.rtxBudgetBps (toUs - fromUs)

lemma potential_rtxRefill (h : p.WF) (hf : fromUs ≤ nowUs) (ht : nowUs ≤ toUs) :
    let r := p.rtxRefill nowUs
    (r.rtxLastRefillUs = 0 ∨ fromUs ≤ r.rtxLastRefillUs) ∧
      r.potential fromUs toUs ≤ p.potential fromUs toUs := by
  obtain ⟨-, hcap, -⟩ := h
  obtain ⟨bytes, hp, -, hhigh, hadd⟩ := rtxRefill_spec p nowUs
  rw [hp]
  unfold potential
  by_cases hz : p.rtxLastRefillUs = 0
  · have hmono := @tokens_mono p.rtxBudgetBps (toUs - max fromUs nowUs) (toUs - fromUs) (by omega)
    simp only [hz, if_true, true_or, Nat.max_zero] at hadd ⊢
    refine ⟨.inr hf, ?_⟩
    split_ifs <;> omega
  simp only [hz, if_false, false_or] at hadd ⊢
  have hle : fromUs ≤ max p.rtxLastRefillUs nowUs := by omega
  refine ⟨.inr hle, ?_⟩
  rw [if_pos (.inr hle), max_eq_right hle]
  split_ifs with hr
  · -- the refill is part of what the rest of the interval was worth
    have hsplit := tokens_add_le p.rtxBudgetBps (nowUs - p.rtxLastRefillUs)
      (toUs - max p.rtxLastRefillUs nowUs)
    have hmono := @tokens_mono p.rtxBudgetBps (nowUs - p.rtxLastRefillUs +
      (toUs - max p.rtxLastRefillUs nowUs)) (toUs - max fromUs p.rtxLastRefillUs) (by omega)
    omega
  · have hmono := @tokens_mono p.rtxBudgetBps (toUs - max p.rtxLastRefillUs nowUs)
      (toUs - fromUs) (by omega)
    omega

lemma cost_add_potential_le (h : p.WF) (ha : p.active) {op : RtxOp}
    (hk : op.KeepsRate p.rtxBudgetBps) (ht : op.Within fromUs toUs) :
    p.cost op + (p.step op).potential fromUs toUs ≤ p.potential fromUs toUs := by
  cases op with
  | allow bytes nowUs =>
    obtain ⟨hr, hle⟩ := potential_rtxRefill h ht.1 ht.2
    refine le_trans (le_of_eq ?_) hle
    by_cases hb : (p.rtxRefill nowUs).rtxBudgetBytes < bytes
    · simp [cost, step, rtxAllow, ha, hb]
    · simp [cost, step, rtxAllow, ha, hb, potential, hr]
      ring
  | refund bytes =>
    change -(bytes : ℤ) + (p.rtxRefund bytes).potential fromUs toUs ≤ _
    unfold rtxRefund
    split_ifs
    · omega
    · simp only [potential]
      split_ifs <;> omega
  | setRate bps nowUs =>
    rw [step, setRate_of_keeps h ha hk.1 hk.2]
    simp [cost]

lemma spent_le_potential {ops : List RtxOp} (h : p.WF) (ha : p.active)
    (hk : ∀ op ∈ ops, op.KeepsRate p.rtxBudgetBps) (ht : ∀ op ∈ ops, op.Within fromUs toUs) :
    p.spent ops ≤ p.potential fromUs toUs := by
  induction ops generalizing p with
  | nil =>
    have h0 := h.nonneg
    have hcap := h.le_cap
    simp only [spent, potential]
    split_ifs <;> omega
  | cons op ops ih =>
    rw [List.forall_mem_cons] at hk ht
    obtain ⟨hact, hrate⟩ := step_keeps h ha hk.1
    have hspent := ih (h.step op) hact (hrate ▸ hk.2) ht.2
    have hcost := cost_add_potential_le h ha hk.1 ht.1
    rw [spent]
    omega

lemma potential_le (h : p.WF) : p.potential fromUs toUs ≤
    p.rtxBudgetCapBytes + tokens p.rtxBudgetBps (toUs - fromUs) := by
  have hcap := h.le_cap
  have hmono := @tokens_mono p.rtxBudgetBps (toUs - max fromUs p.rtxLastRefillUs)
    (toUs - fromUs) (by omega)
  unfold potential
  split_ifs <;> omega

/-- **The budget of retransmissions**: it is between zero and its cap in every state, and what
is spent while the rate stays is at most the cap and what the rate is worth in that time. -/
theorem rtx_budget_bounded (before during : List RtxOp) (fromUs toUs : ℕ)
    (hactive : (run before).active = true)
    (hrate : ∀ op ∈ during, op.KeepsRate (run before).rtxBudgetBps)
    (htime : ∀ op ∈ during, op.Within fromUs toUs) :
    (0 ≤ (run before).rtxBudgetBytes ∧
      (run before).rtxBudgetBytes ≤ (run before).rtxBudgetCapBytes) ∧
    (run before).spent during ≤ (run before).rtxBudgetCapBytes +
      ((run before).rtxBudgetBps / 8 * (toUs - fromUs) / 1000000 : ℕ) :=
  ⟨⟨(wf_run before).nonneg, (wf_run before).le_cap⟩,
    (spent_le_potential (wf_run before) hactive hrate htime).trans (potential_le (wf_run before))⟩

theorem rtx_budget_bounded_mbit :
    (run [.setRate 1000000 5]).spent [.allow 1200 10, .allow 1200 20, .refund 1200,
        .allow 1000 1000020] ≤ (run [.setRate 1000000 5]).rtxBudgetCapBytes +
      ((run [.setRate 1000000 5]).rtxBudgetBps / 8 * (1000020 - 10) / 1000000 : ℕ) :=
  (rtx_budget_bounded [.setRate 1000000 5] [.allow 1200 10, .allow 1200 20, .refund 1200,
    .allow 1000 1000020] 10 1000020 (by decide) (by decide) (by decide)).2

end RtxBudget

end MezonSfu.Paced
