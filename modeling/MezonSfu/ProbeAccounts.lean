import MezonSfu.ProbeClusters

/-!
The accounts of the probe controller: a cluster that was started is running or is counted in
one outcome, and the estimator hears of a bitrate only from a cluster that succeeded.

The calls come in any order, with feedback and loss reports between them. Each moves the accounts
in one of four ways.
-/

namespace MezonSfu.Congestion

open Function

inductive Outcome
  | succeeded
  | failed
  | aborted
  deriving DecidableEq

def Probe.tally (p : Probe) : Outcome → ℕ
  | .succeeded => p.clustersSucceeded
  | .failed => p.clustersFailed
  | .aborted => p.clustersAborted

inductive Call
  | start (nowUs : ℤ)
  | step (scan : Sender.Scan) (nowUs : ℤ)
  | received (clusterId sizeBytes : ℕ) (recvTimeUs : ℤ)
  | lost (clusterId : ℕ)
  | abort (nowUs : ℤ)
  | check (nowUs : ℤ)
  | setUnmetDemand (hasUnmetDemand : Bool)
  | feedback (pkt : PacketInfo)
  | reportLoss (lost total : ℕ)

namespace Sender

variable {T : Type*} (D : Detector T)

def call (s : Sender T) : Call → Sender T
  | .start nowUs => s.startProbe nowUs
  | .step scan nowUs => s.step D scan nowUs
  | .received clusterId sizeBytes recvTimeUs => { s with prober := { s.prober with
      probe := s.prober.probe.onPacketReceived clusterId sizeBytes recvTimeUs } }
  | .lost clusterId => { s with prober := { s.prober with
      probe := s.prober.probe.onPacketLost clusterId } }
  | .abort nowUs => { s with prober := s.prober.abort nowUs }
  | .check nowUs => { s with prober := s.prober.finishCluster D nowUs }
  | .setUnmetDemand b => { s with prober := { s.prober with
      probe := { s.prober.probe with hasUnmetDemand := b } } }
  | .feedback pkt => { s with prober := { s.prober with
      gcc := s.prober.gcc.processTwccPacket D pkt } }
  | .reportLoss lost total => { s with prober := { s.prober with
      gcc := (s.prober.gcc.reportLoss lost total).1 } }

def calls : List Call → Sender T := Runs.run (call D) (init D)

end Sender

namespace Prober

variable {T : Type*} (D : Detector T)

inductive Moves (c c' : Prober T) : Prop
  /-- Nothing starts or ends, and the estimator hears nothing. -/
  | quiet (state : c'.probe.state = .idle ↔ c.probe.state = .idle)
      (started : c'.probe.clustersStarted = c.probe.clustersStarted)
      (tally : c'.probe.tally = c.probe.tally)
      (base : c'.probe.baseBitrateBps = c.probe.baseBitrateBps)
      (target : c'.probe.targetBitrateBps = c.probe.targetBitrateBps)
      (aborted : c'.probe.aborted = c.probe.aborted) (gcc : c'.gcc = c.gcc)
  /-- The estimator learns of a packet or of losses. -/
  | estimates (probe : c'.probe = c.probe)
      (gcc : (∃ pkt, c'.gcc = c.gcc.processTwccPacket D pkt) ∨
        ∃ lost total, c'.gcc = (c.gcc.reportLoss lost total).1)
  | started (idle : c.probe.state = .idle) (state : c'.probe.state = .probing)
      (started : c'.probe.clustersStarted = c.probe.clustersStarted + 1)
      (tally : c'.probe.tally = c.probe.tally)
      (rates : c'.probe.baseBitrateBps < c'.probe.targetBitrateBps ∧
        c'.probe.targetBitrateBps ≤ probeMaxBitrateBps)
      (aborted : c'.probe.aborted = false) (gcc : c'.gcc = c.gcc.setActiveProbing true)
  /-- The cluster is counted in one outcome; its target goes to the estimator if it succeeded. -/
  | ended (o : Outcome) (nowUs : ℤ) (running : c.probe.state ≠ .idle)
      (state : c'.probe.state = .idle)
      (started : c'.probe.clustersStarted = c.probe.clustersStarted)
      (tally : c'.probe.tally = update c.probe.tally o (c.probe.tally o + 1))
      (gcc : c'.gcc = if o = .succeeded then (c.gcc.setActiveProbing false).onProbeClusterCompleted
        D c.probe.targetBitrateBps nowUs else c.gcc.setActiveProbing false)

structure Accounted (c : Prober T) : Prop where
  balance : c.probe.clustersStarted = c.probe.clustersSucceeded + c.probe.clustersFailed +
    c.probe.clustersAborted + if c.probe.state = .idle then 0 else 1
  flag : c.gcc.aimd.activeProbing = true ↔ c.probe.state ≠ .idle
  rates : c.probe.state ≠ .idle → c.probe.baseBitrateBps < c.probe.targetBitrateBps ∧
    c.probe.targetBitrateBps ≤ probeMaxBitrateBps
  running : c.probe.state ≠ .idle → c.probe.aborted = false

variable {D} {c c' : Prober T}

lemma Moves.refl (c : Prober T) : Moves D c c := .quiet .rfl rfl rfl rfl rfl rfl rfl

lemma clusters_eq {p p' : Probe} (h : p'.tally = p.tally) :
    p'.clustersSucceeded = p.clustersSucceeded ∧ p'.clustersFailed = p.clustersFailed ∧
      p'.clustersAborted = p.clustersAborted :=
  ⟨congrFun h .succeeded, congrFun h .failed, congrFun h .aborted⟩

lemma tally_update {p p' : Probe} (o : Outcome)
    (hs : p'.clustersSucceeded = p.clustersSucceeded + if o = .succeeded then 1 else 0)
    (hf : p'.clustersFailed = p.clustersFailed + if o = .failed then 1 else 0)
    (ha : p'.clustersAborted = p.clustersAborted + if o = .aborted then 1 else 0) :
    p'.tally = update p.tally o (p.tally o + 1) := by
  funext o'
  cases o <;> cases o' <;> simp [Probe.tally, hs, hf, ha]

/-- **The accounts are kept** by whatever a call can do. -/
lemma Accounted.moves (h : Accounted c) (hm : Moves D c c') : Accounted c' := by
  obtain ⟨hb, hf, hr, ha⟩ := h
  cases hm with
  | quiet state started tally base target aborted gcc =>
    obtain ⟨hs, hfail, habort⟩ := clusters_eq tally
    constructor
    · simp only [started, hs, hfail, habort, state]
      exact hb
    · rw [gcc, Ne, state]
      exact hf
    · rw [base, target, Ne, state]
      exact hr
    · rw [aborted, Ne, state]
      exact ha
  | estimates probe gcc =>
    have hact : c'.gcc.aimd.activeProbing = c.gcc.aimd.activeProbing := by
      rcases gcc with ⟨pkt, gcc⟩ | ⟨lost, total, gcc⟩
      · rw [gcc]
        exact (Gcc.sameWindows_processTwccPacket D c.gcc pkt).activeProbing
      · rw [gcc]
        exact Sender.reportLoss_activeProbing _ lost total
    rw [← probe] at hb hf hr ha
    exact ⟨hb, hact ▸ hf, hr, ha⟩
  | started idle state started tally rates aborted gcc =>
    obtain ⟨hs, hfail, habort⟩ := clusters_eq tally
    refine ⟨?_, ?_, fun _ => rates, fun _ => aborted⟩
    · simp [started, state, hs, hfail, habort, hb, idle]
    · simp [gcc, state, Gcc.setActiveProbing]
  | ended o nowUs running state started tally gcc =>
    have hs := congrFun tally .succeeded
    have hfail := congrFun tally .failed
    have habort := congrFun tally .aborted
    simp only [Probe.tally, update_apply] at hs hfail habort
    refine ⟨?_, ?_, fun hne => absurd state hne, fun hne => absurd state hne⟩
    · rw [if_neg running] at hb
      rw [started, state, hs, hfail, habort, hb]
      cases o <;> simp <;> omega
    have hact : c'.gcc.aimd.activeProbing = false := by
      rw [gcc]
      split_ifs
      · exact (Gcc.sameWindows_onProbeClusterCompleted D _ _ nowUs).activeProbing
      · rfl
    simp [hact, state]

lemma moves_startProbe (c : Prober T) (nowUs : ℤ) : Moves D c (c.startProbe nowUs) := by
  unfold startProbe
  dsimp only
  generalize (if c.gcc.aimd.currentBitrateBps = 0 then 300000
    else c.gcc.aimd.currentBitrateBps) = baseBps
  split_ifs with h
  · exact .refl c
  obtain ⟨hidle, hmax⟩ := not_or.1 h
  refine .started (not_not.1 hidle) rfl rfl rfl ⟨?_, min_le_right _ _⟩ rfl rfl
  -- below the cap the step leads upward, and so does the cap
  simp only [Probe.target, probeMinStepBps, probeMaxBitrateBps] at hmax ⊢
  omega

lemma moves_abort (c : Prober T) (nowUs : ℤ) : Moves D c (c.abort nowUs) := by
  unfold abort
  split_ifs with h
  · exact .refl c
  · exact .ended .aborted nowUs h rfl rfl (tally_update _ rfl rfl rfl) rfl

lemma moves_finishCluster (h : Accounted c) (nowUs : ℤ) : Moves D c (c.finishCluster D nowUs) := by
  by_cases hs : c.probe.state = .idle
  · rw [finishCluster_idle D hs]
    exact .refl c
  have hfail : Moves D c (c.fail nowUs) :=
    .ended .failed nowUs hs rfl rfl (tally_update _ rfl rfl rfl) rfl
  unfold finishCluster checkClusterDone
  rw [if_neg hs, if_neg (by simp [h.running hs])]
  split_ifs
  · exact hfail
  · exact .refl c
  · refine .ended .succeeded nowUs hs rfl rfl (tally_update _ rfl rfl rfl) ?_
    have hpos := (h.rates hs).1
    simp [succeed, Nat.lt_of_le_of_lt (Nat.zero_le _) hpos]
  · exact hfail

end Prober

namespace Sender

open Prober

variable {T : Type*} {D : Detector T} {s : Sender T}

lemma moves_step (h : Accounted s.prober) (scan : Scan) (nowUs : ℤ) :
    Moves D s.prober (s.step D scan nowUs).prober := by
  refine step_rule D (P := fun s' => Moves D s.prober s'.prober) scan (.refl _)
    (moves_startProbe s.prober nowUs) (moves_abort s.prober nowUs) (moves_finishCluster h nowUs)
    fun hstate g k hg _ => ?_
  obtain ⟨⟨hp, hgcc, -⟩, -⟩ := hg
  unfold endSending
  split_ifs
  · refine .quiet ?_ ?_ ?_ ?_ ?_ ?_ hgcc <;> rw [hp]
    · simp [hstate]
    · rfl
  · refine .quiet ?_ ?_ ?_ ?_ ?_ ?_ hgcc <;> rw [hp]
    rfl

lemma moves_call (h : Accounted s.prober) (a : Call) : Moves D s.prober (s.call D a).prober := by
  cases a with
  | start nowUs => exact moves_startProbe s.prober nowUs
  | step scan nowUs => exact moves_step h scan nowUs
  | received clusterId sizeBytes recvTimeUs =>
    unfold call Probe.onPacketReceived
    dsimp only
    split_ifs <;> exact .quiet .rfl rfl rfl rfl rfl rfl rfl
  | lost clusterId =>
    unfold call Probe.onPacketLost
    dsimp only
    split_ifs <;> exact .quiet .rfl rfl rfl rfl rfl rfl rfl
  | abort nowUs => exact moves_abort s.prober nowUs
  | check nowUs => exact moves_finishCluster h nowUs
  | setUnmetDemand b => exact .quiet .rfl rfl rfl rfl rfl rfl rfl
  | feedback pkt => exact .estimates rfl (.inl ⟨pkt, rfl⟩)
  | reportLoss lost total => exact .estimates rfl (.inr ⟨lost, total, rfl⟩)

lemma accounted_calls (as : List Call) : Accounted (calls D as).prober := by
  refine Runs.run_inv (call D) (I := fun s => Accounted s.prober)
    (fun s a h => h.moves (moves_call h a)) ?_ as
  constructor <;> simp [init, Gcc.init]

/-- **Probe accounting**: after every sequence of calls the accounts balance, and each further
call moves them: it starts a cluster while none runs, or it ends the one that runs in exactly one
outcome, with its target for the estimator if it succeeded, or it does neither. -/
theorem probe_accounting (as : List Call) (a : Call) :
    Accounted (calls D as).prober ∧
      Moves D (calls D as).prober (calls D (as ++ [a])).prober := by
  have h := accounted_calls (D := D) as
  refine ⟨h, ?_⟩
  unfold calls
  rw [Runs.run_concat]
  exact moves_call h a

end Sender

end MezonSfu.Congestion
