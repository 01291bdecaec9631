import MezonSfu.LossWindows
import MezonSfu.ProbeJudged

/-!
Feedback counts each packet once, over whole runs: what a packet was counted for in all, which
packets an operation may count, and that a malformed member counts nothing.
-/

namespace MezonSfu.Congestion

open Prober

namespace Sender

open Twcc

variable {T : Type*} (D : Detector T)

/-! ### The counters and the log -/

/-- The reports that the controller has counted for the current cluster. -/
def reportsCounted (p : Probe) : ℕ := p.packetsReceived + p.packetsLost

lemma reportsCounted_of_over {c c' : Prober T} (h : Over c c') :
    reportsCounted c'.probe = reportsCounted c.probe := by
  unfold reportsCounted
  rw [h.probe]

lemma reportsCounted_finishCluster {c : Prober T} (h : Settled c) (nowUs : ℤ) :
    reportsCounted (c.finishCluster D nowUs).probe = reportsCounted c.probe := by
  by_cases hs : c.probe.state = .idle
  · rw [finishCluster_idle D hs]
  · rcases finishCluster_spec D hs (h.running hs) nowUs with ⟨-, ho⟩ | ⟨-, -, -, heq⟩
    · exact reportsCounted_of_over ho
    · rw [heq]

lemma reportsCounted_abort (c : Prober T) (nowUs : ℤ) :
    reportsCounted (c.abort nowUs).probe = reportsCounted c.probe := by
  unfold abort
  split_ifs <;> rfl

lemma reportsCounted_startProbe (c : Prober T) (nowUs : ℤ)
    (h : (c.startProbe nowUs).probe.clustersStarted = c.probe.clustersStarted) :
    reportsCounted (c.startProbe nowUs).probe = reportsCounted c.probe := by
  rcases startProbe_spec c nowUs with heq | ⟨-, hst⟩
  · rw [heq]
  · have := hst.clustersStarted
    omega

variable {s : Sender T}

lemma reportsCounted_step (hs : Settled s.prober) (scan : Scan) (nowUs : ℤ)
    (h : (s.step D scan nowUs).prober.probe.clustersStarted = s.prober.probe.clustersStarted) :
    reportsCounted (s.step D scan nowUs).prober.probe = reportsCounted s.prober.probe := by
  revert h
  refine step_rule D (P := fun s' => s'.prober.probe.clustersStarted = _ →
    reportsCounted s'.prober.probe = _) scan (fun _ => rfl) (reportsCounted_startProbe _ nowUs)
    (fun _ => reportsCounted_abort _ nowUs) (fun _ => reportsCounted_finishCluster D hs nowUs)
    fun _ g k hg _ _ => ?_
  unfold endSending reportsCounted
  split_ifs <;> rw [hg.probe]

lemma reportsCounted_handleBatch (hs : Settled s.prober) (batch : List Status)
    (currentTimeUs nowUs : ℤ) :
    reportsCounted (s.handleBatch D batch currentTimeUs nowUs).prober.probe =
      reportsCounted (tallyBatch D s batch).sender.prober.probe := by
  have hb := beforeCheck_spec D s batch currentTimeUs nowUs
  have hset := hb.settled hs
  refine (reportsCounted_finishCluster D hset nowUs).trans ?_
  rcases hb.probe with heq | heq
  · rw [heq]
  · rw [heq, reportsCounted_abort]

lemma counted_startProbe (s : Sender T) (nowUs : ℤ) :
    (s.startProbe nowUs).log.counted = s.log.counted := by
  unfold startProbe
  split_ifs <;> rfl

lemma counted_step (s : Sender T) (scan : Scan) (nowUs : ℤ) :
    (s.step D scan nowUs).log.counted = s.log.counted := by
  refine step_rule D (P := fun s' => s'.log.counted = _) scan rfl (counted_startProbe s nowUs)
    rfl rfl fun _ g k hg _ => ?_
  unfold endSending
  split_ifs <;> exact hg.counted

/-- What an operation may count: packets of the ring only; and the counters of the cluster grow
by what is counted for it. -/
structure Counts (s s' : Sender T) (new : List (ℕ × Count)) : Prop where
  counted : s'.log.counted = s.log.counted ++ new
  ring : ∀ x ∈ new, ∃ i, (s.history.entries i).valid = true ∧ (s.history.entries i).packet = x.1
  cluster : s'.prober.probe.clustersStarted = s.prober.probe.clustersStarted →
    reportsCounted s'.prober.probe =
      reportsCounted s.prober.probe + tally new (.probe s.prober.probe.clusterId)

lemma counts_nothing {s' : Sender T} (hl : s'.log.counted = s.log.counted)
    (hr : s'.prober.probe.clustersStarted = s.prober.probe.clustersStarted →
      reportsCounted s'.prober.probe = reportsCounted s.prober.probe) : Counts s s' [] :=
  ⟨by simp [hl], by simp, hr⟩

lemma counts_handleBatch (hs : Settled s.prober) (batch : List Status) (currentTimeUs nowUs : ℤ) :
    ∃ new, Counts s (s.handleBatch D batch currentTimeUs nowUs) new := by
  have hc := counting_tallyBatch D s batch
  obtain ⟨new, hnew, hmem⟩ := hc.counted
  obtain ⟨-, -, hlog⟩ := handleBatch_books D s batch currentTimeUs nowUs
  refine ⟨new, ?_, fun x hx => (hmem x hx).2, fun _ => ?_⟩
  · rw [hlog]
    exact hnew
  have hreports := hc.reports
  rw [hnew, tally_append] at hreports
  rw [reportsCounted_handleBatch D hs]
  unfold reportsCounted
  omega

lemma counts_apply (hs : Settled s.prober) (op : Op) : ∃ new, Counts s (s.apply D op) new := by
  cases op with
  | numberMedia | sendMedia | setUnmetDemand => exact ⟨[], counts_nothing rfl fun _ => rfl⟩
  | drainProbe sent sendTimeUs =>
    obtain ⟨q, history, heq⟩ := drainProbe_eq s sent sendTimeUs
    rw [apply, heq]
    exact ⟨[], counts_nothing rfl fun _ => rfl⟩
  | startProbe nowUs =>
    exact ⟨[], counts_nothing (counted_startProbe s nowUs)
      fun h => reportsCounted_startProbe s.prober nowUs h⟩
  | step scan nowUs =>
    exact ⟨[], counts_nothing (counted_step D s scan nowUs) (reportsCounted_step D hs scan nowUs)⟩
  | checkClusterDone nowUs =>
    refine ⟨[], counts_nothing rfl fun _ => ?_⟩
    change reportsCounted (s.prober.checkClusterDone D nowUs).1.probe = _
    unfold checkClusterDone
    split_ifs <;> rfl
  | handleTwccMember member nowUs =>
    change ∃ new, Counts s (s.handleTwccMember D member nowUs) new
    unfold handleTwccMember
    split
    · exact ⟨[], counts_nothing rfl fun _ => rfl⟩
    · exact counts_handleBatch D hs _ _ nowUs

/-- The sums of `fresh_total` and `fresh_lost` are what the log counts. -/
structure Totals (l : Log) : Prop where
  total : (l.feedbacks.map Feedback.freshTotal).sum = tally l.counted .freshTotal
  lost : (l.feedbacks.map Feedback.freshLost).sum = tally l.counted .freshLost

lemma totals_handleBatch (h : Totals s.log) (batch : List Status)
    (currentTimeUs nowUs : ℤ) : Totals (s.handleBatch D batch currentTimeUs nowUs).log := by
  have hc := counting_tallyBatch D s batch
  obtain ⟨-, -, hlog⟩ := handleBatch_books D s batch currentTimeUs nowUs
  rw [hlog]
  constructor
  · rw [hc.feedbacks, List.map_append, List.sum_append, h.total, hc.freshTotal]
    simp
  · rw [hc.feedbacks, List.map_append, List.sum_append, h.lost, hc.freshLost]
    simp

lemma Totals.congr {l m : Log} (h : Totals l) (hf : m.feedbacks = l.feedbacks)
    (hc : m.counted = l.counted) : Totals m := by
  constructor
  · rw [hf, hc]
    exact h.total
  · rw [hf, hc]
    exact h.lost

lemma totals_apply (h : Totals s.log) (op : Op) : Totals (s.apply D op).log := by
  cases op with
  | numberMedia | sendMedia => exact h.congr rfl rfl
  | drainProbe sent sendTimeUs =>
    obtain ⟨q, history, heq⟩ := drainProbe_eq s sent sendTimeUs
    rw [apply, heq]
    exact h
  | setUnmetDemand b => exact h
  | startProbe nowUs =>
    exact h.congr (sameRow_startProbe s nowUs).feedbacks (counted_startProbe s nowUs)
  | step scan nowUs =>
    exact h.congr (sameRow_step D s scan nowUs).feedbacks (counted_step D s scan nowUs)
  | checkClusterDone nowUs => exact h
  | handleTwccMember member nowUs =>
    change Totals (s.handleTwccMember D member nowUs).log
    unfold handleTwccMember
    split
    · exact h
    · exact totals_handleBatch D h _ _ nowUs

/-- What the accounts say about the whole run. -/
structure CountsOnce (s : Sender T) : Prop where
  /-- A media packet adds at most one to the totals, to the losses and to what the estimator
  sees. -/
  media : ∀ packet : ℕ, s.log.sent[packet]? = some .media →
    s.log.counted.count (packet, .freshTotal) ≤ 1 ∧
      s.log.counted.count (packet, .freshLost) ≤ 1 ∧
      s.log.counted.count (packet, .estimator) ≤ 1
  /-- A probe adds at most one to the reports of its cluster, and nothing to another cluster. -/
  probe : ∀ (packet c : ℕ), s.log.sent[packet]? = some (.probe c) →
    s.log.counted.count (packet, .probe c) ≤ 1 ∧ ∀ c' ≠ c, (packet, .probe c') ∉ s.log.counted
  totals : Totals s.log
  /-- A packet that is not in the ring, overwritten or never recorded, counts for nothing. -/
  ring : ∀ op, ∃ new, Counts s (s.apply D op) new
  malformed : ∀ (member : List UInt8) (nowUs : ℤ), ¬ WellFormed member →
    s.handleTwccMember D member nowUs = s

/-- **Feedback counts each packet once**, whatever members arrive in whatever order between
whatever sends. -/
theorem feedback_counts_once (ops : List Op) : CountsOnce D (run D ops) := by
  have hk := kept_run D ops
  constructor
  case media =>
    exact fun packet _ => ⟨hk.count_le_one packet _, hk.count_le_one packet _,
      hk.count_le_one packet _⟩
  case probe =>
    refine fun packet c hs => ⟨hk.count_le_one packet _, fun c' hne hmem => hne ?_⟩
    have hother := hk.counted_probe hmem
    rw [hs, Option.some.injEq, Sent.probe.injEq] at hother
    exact hother.symm
  case totals =>
    exact Runs.run_inv (apply D) (I := fun s => Totals s.log)
      (fun s op h => totals_apply D h op) ⟨rfl, rfl⟩ ops
  case ring => exact fun op => counts_apply D (settled_run D ops) op
  case malformed =>
    intro member nowUs hbad
    unfold handleTwccMember
    split
    · rfl
    · next hread => exact absurd (readMember_sound hread) hbad

end Sender

end MezonSfu.Congestion
