import Mathlib.Data.List.GetD
import MezonSfu.FeedbackCounts

/-!
The back-off of the estimator on sustained loss. `gcc_bwe_report_loss` counts windows of high
loss in a row and lowers the rate at the third; `handle_twcc_member` calls it only for feedback
with fresh loss, so a window without loss is never seen and does not break the row.
-/

namespace MezonSfu.Congestion

open List

instance : Inhabited Feedback := ⟨⟨0, 0, 0, false⟩⟩

/-- More than ten percent of the freshly reported media packets were lost. -/
def Feedback.HighLoss (f : Feedback) : Prop := f.freshTotal * 10 < f.freshLost * 100

instance (f : Feedback) : Decidable f.HighLoss := inferInstanceAs (Decidable (_ < _))

/-- Every back-off comes with the last of three feedbacks of high loss in a row. -/
def Justified (l : List Feedback) : Prop :=
  ∀ i < l.length, (l.getD i default).backedOff = true →
    2 ≤ i ∧ ∀ j < 3, (l.getD (i - j) default).HighLoss

instance (l : List Feedback) : Decidable (Justified l) :=
  inferInstanceAs (Decidable (∀ i < l.length, _))

def Log.freshFeedbacks (l : Log) : List Feedback := l.feedbacks.filter fun f => 0 < f.fresh

lemma justified_concat {l : List Feedback} {f : Feedback} (h : Justified l)
    (hf : f.backedOff → ∃ l' a b, l = l' ++ [a, b] ∧ a.HighLoss ∧ b.HighLoss ∧ f.HighLoss) :
    Justified (l ++ [f]) := by
  intro i hi hb
  rw [length_append, length_singleton] at hi
  by_cases hlt : i < l.length
  · have hold : ∀ j, (l ++ [f]).getD (i - j) default = l.getD (i - j) default := fun j =>
      getD_append _ _ _ _ (by omega)
    rw [show i = i - 0 from rfl, hold] at hb
    obtain ⟨h2, hall⟩ := h i hlt hb
    exact ⟨h2, fun j hj => (hold j).symm ▸ hall j hj⟩
  · have hlast : i = l.length := by omega
    subst hlast
    have hfb : f.backedOff := by simpa using hb
    obtain ⟨l', a, b, rfl, ha, hb', hf'⟩ := hf hfb
    refine ⟨by simp, fun j hj => ?_⟩
    have hcases : j = 0 ∨ j = 1 ∨ j = 2 := by omega
    rcases hcases with rfl | rfl | rfl <;> simpa using ‹_›

namespace Sender

open Twcc

variable {T : Type*} (D : Detector T)

def highLossWindows (s : Sender T) : ℕ := s.prober.gcc.aimd.consecutiveHighLossWindows

/-- Two senders have the same row of windows and the same feedbacks behind them. -/
structure SameRow (s s' : Sender T) : Prop where
  windows : s'.highLossWindows = s.highLossWindows
  feedbacks : s'.log.feedbacks = s.log.feedbacks

lemma sameRow_startProbe (s : Sender T) (nowUs : ℤ) : SameRow s (s.startProbe nowUs) := by
  unfold startProbe Prober.startProbe
  constructor
  · unfold highLossWindows
    dsimp only
    split_ifs <;> rfl
  · split_ifs <;> rfl

lemma windows_finishCluster (c : Prober T) (nowUs : ℤ) :
    (c.finishCluster D nowUs).gcc.aimd.consecutiveHighLossWindows =
      c.gcc.aimd.consecutiveHighLossWindows := by
  have hcheck : (c.checkClusterDone D nowUs).1.gcc.aimd.consecutiveHighLossWindows =
      c.gcc.aimd.consecutiveHighLossWindows := by
    unfold Prober.checkClusterDone
    split_ifs <;> rfl
  unfold Prober.finishCluster
  split
  · next c' hc => rw [← hcheck, hc]
  next c' bps hc =>
  rw [hc] at hcheck
  split_ifs
  · exact (Gcc.sameWindows_onProbeClusterCompleted D _ _ _).windows.trans hcheck
  · exact hcheck

lemma sameRow_step (s : Sender T) (scan : Scan) (nowUs : ℤ) : SameRow s (s.step D scan nowUs) := by
  refine step_rule D scan ⟨rfl, rfl⟩ (sameRow_startProbe s nowUs) ⟨?_, rfl⟩
    ⟨windows_finishCluster D s.prober nowUs, rfl⟩ fun _ g k hg _ => ?_
  · unfold highLossWindows Prober.abort
    split_ifs <;> rfl
  · unfold endSending
    split_ifs <;> exact ⟨congrArg (·.aimd.consecutiveHighLossWindows) hg.gcc, hg.feedbacks⟩

lemma reportLoss_row (a : AimdController) {lost total : ℕ} (hlost : 0 < lost)
    (htotal : lost ≤ total) :
    let r := a.reportLoss lost total
    (total * 10 < lost * 100 ∧ a.consecutiveHighLossWindows + 1 < 3 ∧ r.2 = false ∧
      r.1.consecutiveHighLossWindows = a.consecutiveHighLossWindows + 1) ∨
    (total * 10 < lost * 100 ∧ 3 ≤ a.consecutiveHighLossWindows + 1 ∧ r.2 ∧
      r.1.consecutiveHighLossWindows = 0) ∨
    (¬ total * 10 < lost * 100 ∧ r.2 = false ∧ r.1.consecutiveHighLossWindows = 0) := by
  unfold AimdController.reportLoss
  rw [if_neg (by omega), if_neg (by omega)]
  dsimp only
  split_ifs with hhigh h3
  · exact .inr (.inl ⟨hhigh, h3, rfl, rfl⟩)
  · exact .inl ⟨hhigh, Nat.lt_of_not_le h3, rfl, rfl⟩
  · exact .inr (.inr ⟨hhigh, rfl, rfl⟩)
  · exact .inr (.inr ⟨hhigh, rfl, rfl⟩)

lemma windows_reportLoss (s : Sender T) {lost : ℕ} (total : ℕ) (hlost : 0 < lost) (nowUs : ℤ) :
    let r := s.prober.gcc.aimd.reportLoss lost total
    (s.reportLoss lost total nowUs).1.highLossWindows = r.1.consecutiveHighLossWindows ∧
      (s.reportLoss lost total nowUs).2 = r.2 := by
  unfold reportLoss highLossWindows Gcc.reportLoss Prober.abort
  rw [if_pos hlost]
  dsimp only
  constructor
  · split_ifs <;> rfl
  · rfl

lemma windows_handleBatch (s : Sender T) (batch : List Status) (currentTimeUs nowUs : ℤ) :
    (s.handleBatch D batch currentTimeUs nowUs).highLossWindows =
      ((((tallyBatch D s batch).sender.raiseAnchor currentTimeUs).reportLoss
        (tallyBatch D s batch).freshLost (tallyBatch D s batch).freshTotal
        nowUs).1).highLossWindows :=
  windows_finishCluster D _ nowUs

/-! ### The row -/

/-- The windows that are counted are the last feedbacks, each of high loss. -/
structure Row (s : Sender T) : Prop where
  justified : Justified s.log.freshFeedbacks
  row : ∃ front last, s.log.freshFeedbacks = front ++ last ∧ last.length = s.highLossWindows ∧
    ∀ f ∈ last, f.HighLoss
  windows_le : s.highLossWindows ≤ 2

lemma Row.congr {s s' : Sender T} (h : Row s) (hs : SameRow s s') : Row s' := by
  have hf : s'.log.freshFeedbacks = s.log.freshFeedbacks := by
    unfold Log.freshFeedbacks
    rw [hs.feedbacks]
  constructor
  · rw [hf]
    exact h.justified
  · rw [hf, hs.windows]
    exact h.row
  · rw [hs.windows]
    exact h.windows_le

/-- A feedback that newly reports packets but no newly lost media packet comes only while no
window of high loss is counted. -/
def CleanAtZero (s : Sender T) : Op → Prop
  | .handleTwccMember member _ =>
    ∀ r ∈ readMember member s.twccLastFeedbackRefUs,
      0 < (tallyBatch D s r.1).fresh → (tallyBatch D s r.1).freshLost = 0 → s.highLossWindows = 0
  | _ => True

instance (s : Sender T) (op) : Decidable (CleanAtZero D s op) := by
  cases op <;> (unfold CleanAtZero; infer_instance)

/-- A feedback keeps the row, unless it is free of loss where a window is counted. -/
lemma row_handleBatch {s : Sender T} (h : Row s) (batch : List Status) (currentTimeUs nowUs : ℤ)
    (hclean : 0 < (tallyBatch D s batch).fresh → (tallyBatch D s batch).freshLost = 0 →
      s.highLossWindows = 0) : Row (s.handleBatch D batch currentTimeUs nowUs) := by
  have hcounting := counting_tallyBatch D s batch
  obtain ⟨-, -, hlog⟩ := handleBatch_books D s batch currentTimeUs nowUs
  have hwindows := windows_handleBatch D s batch currentTimeUs nowUs
  have hsame : (tallyBatch D s batch).sender.prober.gcc.aimd.consecutiveHighLossWindows =
      s.highLossWindows := hcounting.windows.windows
  have hle := hcounting.lost_le
  have hold : (tallyBatch D s batch).sender.log.feedbacks = s.log.feedbacks := hcounting.feedbacks
  generalize tallyBatch D s batch = t at *
  generalize s.handleBatch D batch currentTimeUs nowUs = s' at *
  set up := t.sender.raiseAnchor currentTimeUs
  generalize hr : up.reportLoss t.freshLost t.freshTotal nowUs = r at *
  have hfeedbacks : s'.log.freshFeedbacks = s.log.freshFeedbacks ++
      if 0 < t.fresh then [⟨t.fresh, t.freshLost, t.freshTotal, r.2⟩] else [] := by
    unfold Log.freshFeedbacks
    rw [hlog]
    rw [hold, filter_append]
    congr 1
    by_cases hf : 0 < t.fresh <;> simp [hf]
  obtain ⟨front, last, hrow, hlen, hhigh⟩ := h.row
  by_cases hlost : 0 < t.freshLost
  · -- the estimator sees the feedback
    have hfresh : 0 < t.fresh := by omega
    rw [if_pos hfresh] at hfeedbacks
    obtain ⟨hw, hb⟩ := windows_reportLoss up
      t.freshTotal hlost nowUs
    rw [hr] at hw hb
    have hcases := reportLoss_row up.prober.gcc.aimd hlost hle.1
    have hraise : up.prober.gcc.aimd.consecutiveHighLossWindows = s.highLossWindows := hsame
    dsimp only at hcases
    rw [← hw, ← hb, hraise, ← hwindows] at hcases
    rcases hcases with ⟨hl, hlt, hback, hnext⟩ | ⟨hl, h3, hback, hnext⟩ | ⟨hl, hback, hnext⟩
    · -- one window more
      refine ⟨?_, ⟨front, last ++ [⟨t.fresh, t.freshLost, t.freshTotal, r.2⟩], ?_, ?_, ?_⟩, ?_⟩
      · rw [hfeedbacks]
        exact justified_concat h.justified fun hb' => by simp [hback] at hb'
      · rw [hfeedbacks, hrow, append_assoc]
      · rw [hnext, length_append, hlen, length_singleton]
      · exact forall_mem_append.2 ⟨hhigh, forall_mem_singleton.2 hl⟩
      · omega
    · -- the third window: the two before it are the last feedbacks
      have htwo : last.length = 2 := by
        have := h.windows_le
        omega
      obtain ⟨a, b, rfl⟩ := length_eq_two.1 htwo
      refine ⟨?_, ⟨s'.log.freshFeedbacks, [], by simp, by simp [hnext], by simp⟩, by omega⟩
      rw [hfeedbacks]
      refine justified_concat h.justified fun _ => ⟨front, a, b, hrow, ?_, ?_, hl⟩
      · exact hhigh a (by simp)
      · exact hhigh b (by simp)
    · -- the row is broken
      refine ⟨?_, ⟨s'.log.freshFeedbacks, [], by simp, by simp [hnext], by simp⟩, by omega⟩
      rw [hfeedbacks]
      exact justified_concat h.justified fun hb' => by simp [hback] at hb'
  · -- the estimator does not see it
    have hzero : t.freshLost = 0 := by omega
    have hrr : r = (t.sender.raiseAnchor currentTimeUs, false) := by
      rw [← hr]
      exact if_neg hlost
    have hkeep : s'.highLossWindows = s.highLossWindows := by
      rw [hwindows, hrr]
      exact hsame
    by_cases hfresh : 0 < t.fresh
    · have hw0 := hclean hfresh hzero
      rw [if_pos hfresh] at hfeedbacks
      refine ⟨?_, ⟨s'.log.freshFeedbacks, [], by simp, by simp [hkeep, hw0], by simp⟩, by omega⟩
      rw [hfeedbacks]
      exact justified_concat h.justified fun hb' => by simp [hrr] at hb'
    · rw [if_neg hfresh, append_nil] at hfeedbacks
      refine ⟨hfeedbacks ▸ h.justified, ⟨front, last, hfeedbacks.trans hrow, ?_, hhigh⟩, ?_⟩
      · rw [hlen, hkeep]
      · rw [hkeep]
        exact h.windows_le

lemma row_apply {s : Sender T} (h : Row s) (op : Op) (hop : CleanAtZero D s op) :
    Row (s.apply D op) := by
  cases op with
  | numberMedia | sendMedia | setUnmetDemand => exact h.congr ⟨rfl, rfl⟩
  | drainProbe sent sendTimeUs =>
    obtain ⟨q, history, heq⟩ := drainProbe_eq s sent sendTimeUs
    rw [apply, heq]
    exact h.congr ⟨rfl, rfl⟩
  | startProbe nowUs => exact h.congr (sameRow_startProbe s nowUs)
  | step scan nowUs => exact h.congr (sameRow_step D s scan nowUs)
  | checkClusterDone nowUs =>
    refine h.congr ⟨?_, rfl⟩
    change (s.prober.checkClusterDone D nowUs).1.gcc.aimd.consecutiveHighLossWindows = _
    unfold Prober.checkClusterDone
    split_ifs <;> rfl
  | handleTwccMember member nowUs =>
    change Row (s.handleTwccMember D member nowUs)
    unfold handleTwccMember
    split
    · exact h
    · next batch currentTimeUs hread =>
      refine row_handleBatch D h batch currentTimeUs nowUs ?_
      exact hop (batch, currentTimeUs) hread

/-- **The rate is lowered only at the third feedback of high loss in a row**, in every run in
which a feedback without fresh loss comes only while no window of high loss is counted. -/
theorem high_loss_backoff (ops : List Op)
    (hops : Runs.Along (apply D) (CleanAtZero D) (init D) ops) :
    Justified (run D ops).log.freshFeedbacks := by
  have hinit : Row (init D) :=
    ⟨fun i hi => by simp [init, Log.freshFeedbacks] at hi, ⟨[], [], rfl, rfl, by simp⟩,
      Nat.zero_le 2⟩
  exact (Runs.run_inv_along (apply D) (I := Row) (fun s op h hop => row_apply D h op hop) hinit
    hops).justified

def reportedInTurn (lost : List Bool) : List Op :=
  [1, 2, 3, 4, 5].map (fun seq => .sendMedia seq (1000 * seq) 1200) ++
    List.zipWith (fun seq lost => .handleTwccMember (oneStatus seq lost) 100000) [1, 2, 3, 4, 5]
      lost

/-- Every other feedback is free of loss, and the rate is lowered all the same. -/
theorem backoff_between_clean_feedbacks :
    let s := run calm (reportedInTurn [true, false, true, false, true])
    (∀ f ∈ s.log.feedbacks, 0 < f.fresh) ∧ s.log.feedbacks.length = 5 ∧
      s.prober.gcc.aimd.currentBitrateBps < bweStartBps ∧ ¬ Justified s.log.freshFeedbacks := by
  decide +kernel

/-- Three feedbacks of high loss in a row lower the rate. -/
theorem high_loss_backoff_three :
    let ops := reportedInTurn [false, true, true, true]
    Runs.Along (apply calm) (CleanAtZero calm) (init calm) ops ∧
      (run calm ops).log.feedbacks.map Feedback.backedOff = [false, false, false, true] ∧
      Justified (run calm ops).log.freshFeedbacks :=
  ⟨by decide +kernel, by decide +kernel, high_loss_backoff calm _ (by decide +kernel)⟩

end Sender

end MezonSfu.Congestion
