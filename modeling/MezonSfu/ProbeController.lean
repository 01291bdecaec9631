import MezonSfu.Gcc

/-!
The probe controller (`probe_controller.c`): it sends a cluster of padding packets somewhat
faster than the estimate, waits until feedback has reported them, and judges the cluster.

A `Prober` is the controller with the estimator it reports to. Counters of packets and bytes are
natural numbers: a cluster has at most 9375 bytes to send, so none nears its 32 bits. The number
of the cluster wraps as in the source.
-/

namespace MezonSfu.Congestion

inductive ProbeState
  | idle
  | probing
  | waitingFeedback
  deriving DecidableEq

def probeClusterDurationUs : ℕ := 15000
def probeClusterTimeoutUs : ℤ := 500000
def probeMinStepBps : ℕ := 500000
def probeMaxBitrateBps : ℕ := 5000000
def probeCooldownSuccessUs : ℤ := 250000
def probeCooldownFailureUs : ℤ := 1000000

/-- `sfu_probe_controller_t`. -/
structure Probe where
  state : ProbeState := .idle
  clusterId : ℕ := 0
  baseBitrateBps : ℕ := 0
  targetBitrateBps : ℕ := 0
  bytesTarget : ℕ := 0
  bytesSent : ℕ := 0
  packetsSent : ℕ := 0
  packetsReceived : ℕ := 0
  bytesReceived : ℕ := 0
  packetsLost : ℕ := 0
  startTimeUs : ℤ := 0
  sendEndTimeUs : ℤ := 0
  firstRecvUs : ℤ := 0
  lastRecvUs : ℤ := 0
  cooldownUntilUs : ℤ := 0
  hasUnmetDemand : Bool := false
  aborted : Bool := false
  clustersStarted : ℕ := 0
  clustersSucceeded : ℕ := 0
  clustersFailed : ℕ := 0
  clustersAborted : ℕ := 0

/-- The number of the next cluster: 32 bits, and never zero. -/
def nextClusterId (clusterId : ℕ) : ℕ :=
  if (clusterId + 1) % 2 ^ 32 = 0 then 1 else (clusterId + 1) % 2 ^ 32

namespace Probe

/-- The rate a cluster proves: half above the base, at least by the minimal step. -/
def target (baseBps : ℕ) : ℕ := min (baseBps + max (baseBps / 2) probeMinStepBps) probeMaxBitrateBps

variable (p : Probe)

/-- The controller counts a report about the cluster. -/
def counts (clusterId : ℕ) : Bool := decide (p.state ≠ .idle) && decide (p.clusterId = clusterId)

def onPacketReceived (clusterId sizeBytes : ℕ) (recvTimeUs : ℤ) : Probe :=
  if p.counts clusterId then { p with
    packetsReceived := p.packetsReceived + 1
    bytesReceived := p.bytesReceived + sizeBytes
    firstRecvUs :=
      if p.firstRecvUs = 0 ∨ recvTimeUs < p.firstRecvUs then recvTimeUs else p.firstRecvUs
    lastRecvUs := max recvTimeUs p.lastRecvUs }
  else p

def onPacketLost (clusterId : ℕ) : Probe :=
  if p.counts clusterId then { p with packetsLost := p.packetsLost + 1 } else p

def allFeedback : Bool :=
  decide (0 < p.packetsSent) && decide (p.packetsSent ≤ p.packetsReceived + p.packetsLost)

def timedOut (nowUs : ℤ) : Bool :=
  decide (0 < p.sendEndTimeUs) && decide (probeClusterTimeoutUs < nowUs - p.sendEndTimeUs)

def measuredBps : ℕ :=
  if 2 ≤ p.packetsReceived then
    if 0 < p.lastRecvUs - p.firstRecvUs then
      p.bytesReceived * 8 * 1000000 / (p.lastRecvUs - p.firstRecvUs).toNat
    else p.targetBitrateBps
  else if p.packetsReceived = 1 ∧ p.packetsLost = 0 then p.targetBitrateBps
  else 0

def proved : Bool :=
  (decide (p.packetsLost = 0) || decide (p.packetsLost * 100 ≤ p.packetsSent * 5)) &&
    decide (p.bytesTarget * 85 ≤ p.bytesReceived * 100) &&
    decide (p.targetBitrateBps * 85 ≤ p.measuredBps * 100)

end Probe

/-- The probe controller and the estimator of one subscriber. -/
structure Prober (T : Type*) where
  probe : Probe
  gcc : Gcc T

namespace Prober

variable {T : Type*} (D : Detector T)

section

variable (c : Prober T)

variable (nowUs : ℤ)

def startProbe : Prober T :=
  let bitrate := c.gcc.aimd.currentBitrateBps
  let baseBps := if bitrate = 0 then 300000 else bitrate
  if c.probe.state ≠ .idle ∨ probeMaxBitrateBps ≤ baseBps then c
  else {
    probe := { c.probe with
      clusterId := nextClusterId c.probe.clusterId
      state := .probing
      startTimeUs := nowUs
      sendEndTimeUs := 0, firstRecvUs := 0, lastRecvUs := 0
      bytesSent := 0, packetsSent := 0, packetsReceived := 0, bytesReceived := 0
      packetsLost := 0
      aborted := false
      baseBitrateBps := baseBps
      targetBitrateBps := Probe.target baseBps
      bytesTarget := max (Probe.target baseBps * probeClusterDurationUs / 8000000) 750
      clustersStarted := c.probe.clustersStarted + 1 }
    gcc := c.gcc.setActiveProbing true }

def abort : Prober T :=
  if c.probe.state = .idle then c
  else {
    probe := { c.probe with
      state := .idle
      aborted := true
      cooldownUntilUs := nowUs + probeCooldownFailureUs
      clustersAborted := c.probe.clustersAborted + 1 }
    gcc := c.gcc.setActiveProbing false }

def fail : Prober T where
  probe := { c.probe with
    state := .idle
    cooldownUntilUs := nowUs + probeCooldownFailureUs
    clustersFailed := c.probe.clustersFailed + 1 }
  gcc := c.gcc.setActiveProbing false

def succeed : Prober T where
  probe := { c.probe with
    state := .idle
    cooldownUntilUs := nowUs + probeCooldownSuccessUs
    clustersSucceeded := c.probe.clustersSucceeded + 1 }
  gcc := c.gcc.setActiveProbing false

/-- `sfu_probe_controller_check_cluster_done`: the answer is the rate that the cluster proved,
or zero, where the cluster is done. -/
def checkClusterDone : Prober T × Option ℕ :=
  if c.probe.state = .idle then (c, none)
  else if c.probe.aborted then
    ({ probe := { c.probe with state := .idle, aborted := false }
       gcc := c.gcc.setActiveProbing false }, none)
  else if c.gcc.isOverusing D then (c.fail nowUs, some 0)
  else if c.probe.allFeedback = false ∧ c.probe.timedOut nowUs = false then (c, none)
  else if c.probe.proved then (c.succeed nowUs, some c.probe.targetBitrateBps)
  else (c.fail nowUs, some 0)

/-- What both callers do with the answer of the check: a proved rate goes to the estimator. -/
def finishCluster : Prober T :=
  match checkClusterDone D c nowUs with
  | (c, none) => c
  | (c, some bps) =>
    { c with gcc := if 0 < bps then c.gcc.onProbeClusterCompleted D bps nowUs else c.gcc }

def shouldProbe (twccNegotiated rtxAvailable : Bool) (rtxQueueCount mediaBacklogCount : ℕ) : Bool :=
  twccNegotiated && rtxAvailable && decide (rtxQueueCount = 0) &&
    decide (mediaBacklogCount = 0) && decide (c.probe.state = .idle) && c.probe.hasUnmetDemand &&
    decide (c.probe.cooldownUntilUs ≤ nowUs) && decide (c.gcc.getUsage D = .normal) &&
    c.gcc.hasRecentFeedback nowUs 500000

end

structure Started (c c' : Prober T) (nowUs : ℤ) : Prop where
  state : c'.probe.state = .probing
  clusterId : c'.probe.clusterId = nextClusterId c.probe.clusterId
  startTimeUs : c'.probe.startTimeUs = nowUs
  sendEndTimeUs : c'.probe.sendEndTimeUs = 0
  packetsSent : c'.probe.packetsSent = 0
  reports : c'.probe.packetsReceived + c'.probe.packetsLost = 0
  aborted : c'.probe.aborted = false
  clustersStarted : c'.probe.clustersStarted = c.probe.clustersStarted + 1
  clustersSucceeded : c'.probe.clustersSucceeded = c.probe.clustersSucceeded
  clustersFailed : c'.probe.clustersFailed = c.probe.clustersFailed
  trendline : c'.gcc.trendline = c.gcc.trendline

lemma startProbe_spec (c : Prober T) (nowUs : ℤ) :
    c.startProbe nowUs = c ∨ c.probe.state = .idle ∧ Started c (c.startProbe nowUs) nowUs := by
  unfold startProbe
  dsimp only
  generalize (if c.gcc.aimd.currentBitrateBps = 0 then 300000
    else c.gcc.aimd.currentBitrateBps) = baseBps
  by_cases h : c.probe.state ≠ .idle ∨ probeMaxBitrateBps ≤ baseBps
  · exact .inl (if_pos h)
  · refine .inr ⟨not_not.1 (not_or.1 h).1, ?_⟩
    rw [if_neg h]
    exact ⟨rfl, rfl, rfl, rfl, rfl, rfl, rfl, rfl, rfl, rfl, rfl⟩

/-! ### What the check can do -/

/-- The cluster is over: the controller is idle and the estimator knows it. -/
structure Over (c c' : Prober T) : Prop where
  state : c'.probe.state = .idle
  active : c'.gcc.aimd.activeProbing = false
  /-- Only the end of the cluster is noted. -/
  probe : c'.probe = { c.probe with
    state := .idle, aborted := c'.probe.aborted, cooldownUntilUs := c'.probe.cooldownUntilUs
    clustersSucceeded := c'.probe.clustersSucceeded, clustersFailed := c'.probe.clustersFailed
    clustersAborted := c'.probe.clustersAborted }
  trendline : c'.gcc.trendline = c.gcc.trendline

def Judged (p p' : Probe) : Prop :=
  p'.clustersSucceeded + p'.clustersFailed ≠ p.clustersSucceeded + p.clustersFailed

instance (p p' : Probe) : Decidable (Judged p p') := inferInstanceAs (Decidable (_ ≠ _))

variable {c : Prober T}

lemma over_abort (h : c.probe.state ≠ .idle) (nowUs : ℤ) :
    Over c (c.abort nowUs) ∧ ¬ Judged c.probe (c.abort nowUs).probe := by
  unfold abort
  rw [if_neg h]
  exact ⟨⟨rfl, rfl, rfl, rfl⟩, fun hj => hj rfl⟩

lemma over_fail (c : Prober T) (nowUs : ℤ) : Over c (c.fail nowUs) := ⟨rfl, rfl, rfl, rfl⟩

lemma over_succeed (c : Prober T) (nowUs : ℤ) : Over c (c.succeed nowUs) := ⟨rfl, rfl, rfl, rfl⟩

/-- A cluster that was not aborted ends where the estimator sees overuse, every packet sent was
reported, or it waited too long; else nothing happens. -/
lemma checkClusterDone_spec (hs : c.probe.state ≠ .idle)
    (ha : c.probe.aborted = false) (nowUs : ℤ) :
    ((c.gcc.isOverusing D ∨ c.probe.allFeedback ∨ c.probe.timedOut nowUs) ∧
      Over c (c.checkClusterDone D nowUs).1) ∨
    (c.gcc.isOverusing D = false ∧ c.probe.allFeedback = false ∧
      c.probe.timedOut nowUs = false ∧ c.checkClusterDone D nowUs = (c, none)) := by
  unfold checkClusterDone
  rw [if_neg hs, if_neg (by simp [ha])]
  split_ifs with hover hwait hproved
  · exact .inl ⟨.inl hover, over_fail c nowUs⟩
  · exact .inr ⟨by simpa using hover, hwait.1, hwait.2, rfl⟩
  · refine .inl ⟨.inr ?_, over_succeed c nowUs⟩
    rw [not_and_or] at hwait
    simpa using hwait
  · refine .inl ⟨.inr ?_, over_fail c nowUs⟩
    rw [not_and_or] at hwait
    simpa using hwait

/-- The callers add only what a proved rate changes in the estimator. -/
lemma finishCluster_spec (hs : c.probe.state ≠ .idle) (ha : c.probe.aborted = false) (nowUs : ℤ) :
    ((c.gcc.isOverusing D ∨ c.probe.allFeedback ∨ c.probe.timedOut nowUs) ∧
      Over c (c.finishCluster D nowUs)) ∨
    (c.gcc.isOverusing D = false ∧ c.probe.allFeedback = false ∧
      c.probe.timedOut nowUs = false ∧ c.finishCluster D nowUs = c) := by
  unfold finishCluster
  rcases checkClusterDone_spec D hs ha nowUs with ⟨hwhy, hover⟩ | ⟨h1, h2, h3, heq⟩
  · left
    refine ⟨hwhy, ?_⟩
    split
    · next c' hc => rwa [hc] at hover
    next c' bps hc =>
    rw [hc] at hover
    split_ifs
    · have hw := Gcc.sameWindows_onProbeClusterCompleted D c'.gcc bps nowUs
      refine ⟨hover.state, hw.activeProbing.trans hover.active, hover.probe, ?_⟩
      rw [← hover.trendline]
      unfold Gcc.onProbeClusterCompleted
      split_ifs <;> rfl
    · exact hover
  · right
    rw [heq]
    exact ⟨h1, h2, h3, rfl⟩

lemma finishCluster_idle (hs : c.probe.state = .idle) (nowUs : ℤ) :
    c.finishCluster D nowUs = c := by
  unfold finishCluster checkClusterDone
  rw [if_pos hs]

end Prober

end MezonSfu.Congestion
