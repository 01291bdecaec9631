import MezonSfu.FeedbackCounts

/-!
The life of a probe cluster: how the operations move the controller, when a cluster that is
overdue ends, and what has been sent and reported when a cluster is judged.
-/

namespace MezonSfu.Congestion

open Prober

namespace Sender

open Twcc

variable {T : Type*} (D : Detector T)

/-! ### What the operations do to the controller -/

/-- What holds of the controller between the operations. -/
structure Settled (c : Prober T) : Prop where
  idle : c.probe.state = .idle → c.gcc.aimd.activeProbing = false
  running : c.probe.state ≠ .idle → c.probe.aborted = false
  probing : c.probe.state = .probing → c.probe.sendEndTimeUs = 0
  waiting : c.probe.state = .waitingFeedback → c.probe.bytesTarget ≤ c.probe.bytesSent

variable {c c' : Prober T} {s : Sender T} {nowUs : ℤ}

lemma settled_of_over (h : Over c c') : Settled c' where
  idle := fun _ => h.active
  running := fun hs => absurd h.state hs
  probing := fun hs => by simp [h.state] at hs
  waiting := fun hs => by simp [h.state] at hs

section

variable (h : Settled c)

include h

variable (nowUs : ℤ)

lemma settled_startProbe : Settled (c.startProbe nowUs) := by
  rcases startProbe_spec c nowUs with heq | ⟨-, hs⟩
  · rwa [heq]
  · constructor <;> simp [hs.state, hs.aborted, hs.sendEndTimeUs]

lemma settled_finishCluster : Settled (c.finishCluster D nowUs) := by
  by_cases hs : c.probe.state = .idle
  · rwa [finishCluster_idle D hs]
  · rcases finishCluster_spec D hs (h.running hs) nowUs with ⟨-, ho⟩ | ⟨-, -, -, heq⟩
    · exact settled_of_over ho
    · rwa [heq]

lemma settled_checkClusterDone : Settled (c.checkClusterDone D nowUs).1 := by
  by_cases hs : c.probe.state = .idle
  · unfold checkClusterDone
    rwa [if_pos hs]
  · rcases checkClusterDone_spec D hs (h.running hs) nowUs with ⟨-, ho⟩ | ⟨-, -, -, heq⟩
    · exact settled_of_over ho
    · rwa [heq]

lemma settled_abort : Settled (c.abort nowUs) := by
  by_cases hs : c.probe.state = .idle
  · unfold abort
    rwa [if_pos hs]
  · exact settled_of_over (over_abort hs nowUs).1

/-- Fields that the loop and the reports leave alone carry the invariant. -/
lemma Settled.congr (hst : c'.probe.state = c.probe.state)
    (hab : c'.probe.aborted = c.probe.aborted)
    (hend : c'.probe.sendEndTimeUs = c.probe.sendEndTimeUs)
    (hbytes : c.probe.bytesTarget ≤ c.probe.bytesSent → c'.probe.bytesTarget ≤ c'.probe.bytesSent)
    (hact : c'.gcc.aimd.activeProbing = c.gcc.aimd.activeProbing) : Settled c' := by
  obtain ⟨h1, h2, h3, h4⟩ := h
  constructor
  · rw [hst, hact]
    exact h1
  · rw [hst, hab]
    exact h2
  · rw [hst, hend]
    exact h3
  · rw [hst]
    exact fun hs => hbytes (h4 hs)

end

lemma reportLoss_activeProbing (a : AimdController) (lost total : ℕ) :
    (a.reportLoss lost total).1.activeProbing = a.activeProbing := by
  unfold AimdController.reportLoss
  dsimp only
  split_ifs <;> rfl

section

variable (h : Settled s.prober)

include h

lemma settled_tallyBatch (batch : List Status) : Settled (tallyBatch D s batch).sender.prober := by
  have hc := counting_tallyBatch D s batch
  refine h.congr ?_ ?_ ?_ ?_ hc.windows.activeProbing
  all_goals
    rw [hc.probe]
  exact id

lemma settled_reportLoss (freshLost freshTotal : ℕ) (nowUs : ℤ) :
    Settled (s.reportLoss freshLost freshTotal nowUs).1.prober := by
  have hreport : Settled { s.prober with
      gcc := (s.prober.gcc.reportLoss freshLost freshTotal).1 } :=
    h.congr rfl rfl rfl id (reportLoss_activeProbing ..)
  unfold reportLoss
  split_ifs
  · dsimp only
    split_ifs
    · exact settled_abort hreport nowUs
    · exact hreport
  · exact h

lemma settled_handleBatch (batch : List Status) (currentTimeUs nowUs : ℤ) :
    Settled (s.handleBatch D batch currentTimeUs nowUs).prober :=
  settled_finishCluster D (settled_reportLoss (s := (tallyBatch D s batch).sender.raiseAnchor
    currentTimeUs) (settled_tallyBatch D h batch) _ _ nowUs) nowUs

lemma settled_step (scan : Scan) (nowUs : ℤ) : Settled (s.step D scan nowUs).prober := by
  refine step_rule D (P := fun s => Settled s.prober) scan h (settled_startProbe h nowUs)
    (settled_abort h nowUs) (settled_finishCluster D h nowUs) fun hst g k hg _ => ?_
  have hstate : g.prober.probe.state = .probing := by rw [hg.probe]; exact hst
  have hab : g.prober.probe.aborted = false := by
    rw [hg.probe]
    exact h.running (by simp [hst])
  unfold endSending
  split_ifs with hbytes
  · constructor <;> simp [hab, hbytes]
  constructor
  · simp [hstate]
  · exact fun _ => hab
  · intro _
    rw [hg.probe]
    exact h.probing hst
  · simp [hstate]

lemma settled_apply (op : Op) : Settled (s.apply D op).prober := by
  cases op with
  | numberMedia | sendMedia => exact h
  | drainProbe sent sendTimeUs =>
    obtain ⟨q, history, heq⟩ := drainProbe_eq s sent sendTimeUs
    rw [apply, heq]
    exact h
  | setUnmetDemand b => exact h.congr rfl rfl rfl id rfl
  | startProbe nowUs => exact settled_startProbe h nowUs
  | step scan nowUs => exact settled_step D h scan nowUs
  | checkClusterDone nowUs => exact settled_checkClusterDone D h nowUs
  | handleTwccMember member nowUs =>
    change Settled (s.handleTwccMember D member nowUs).prober
    unfold handleTwccMember
    split
    · exact h
    · exact settled_handleBatch D h _ _ nowUs

end

lemma settled_run (ops : List Op) : Settled (run D ops).prober := by
  refine Runs.run_inv (apply D) (I := fun s => Settled s.prober)
    (fun s op h => settled_apply D h op) ?_ ops
  constructor <;> simp [init, Gcc.init]

/-! ### The end of a cluster -/

/-- The cluster is past its time: since its start while it is still sending, or since its last
packet while it waits for feedback. -/
def Overdue (s : Sender T) (nowUs : ℤ) : Prop :=
  (s.prober.probe.state = .probing ∧ probeClusterTimeoutUs < nowUs - s.prober.probe.startTimeUs) ∨
  (s.prober.probe.state = .waitingFeedback ∧
    probeClusterTimeoutUs < nowUs - s.prober.probe.sendEndTimeUs)

instance (s : Sender T) (nowUs : ℤ) : Decidable (Overdue s nowUs) :=
  inferInstanceAs (Decidable (_ ∨ _))

/-- No cluster runs, and the estimator knows it. -/
def Ended (s : Sender T) : Prop :=
  s.prober.probe.state = .idle ∧ s.prober.gcc.aimd.activeProbing = false

instance (s : Sender T) : Decidable (Ended s) := inferInstanceAs (Decidable (_ ∧ _))

/-- What ends an overdue cluster. One that still sends is aborted or has had every packet that
it sent so far reported; one that waits only needs a clock that does not start at zero. -/
def Ends (s : Sender T) (scan : Scan) : Prop :=
  (s.prober.probe.state = .waitingFeedback → 0 < s.prober.probe.sendEndTimeUs) ∧
  (s.prober.probe.state = .probing →
    s.prober.gcc.isOverusing D = true ∨ scan.rtxAvailable = false ∨ 0 < scan.rtxQueueCount ∨
      (0 < s.prober.probe.startTimeUs ∧ s.prober.probe.allFeedback = true))

instance (s : Sender T) (scan : Scan) : Decidable (Ends D s scan) :=
  inferInstanceAs (Decidable ((_ → _) ∧ (_ → _)))

lemma step_waiting (h : Settled s.prober) (hs : s.prober.probe.state = .waitingFeedback)
    (scan : Scan) (hdue : probeClusterTimeoutUs < nowUs - s.prober.probe.sendEndTimeUs) :
    Ended (s.step D scan nowUs) ↔ 0 < s.prober.probe.sendEndTimeUs := by
  unfold step
  rw [hs]
  dsimp only
  constructor
  · intro hended
    by_contra hpos
    rw [if_neg (by tauto)] at hended
    simp [Ended, hs] at hended
  intro hpos
  rw [if_pos ⟨hpos, hdue⟩]
  have hne : s.prober.probe.state ≠ .idle := by simp [hs]
  have htimed : s.prober.probe.timedOut nowUs := by
    simp [Probe.timedOut, hpos, hdue]
  rcases finishCluster_spec D hne (h.running hne) nowUs with ⟨-, ho⟩ | ⟨-, -, hno, -⟩
  · exact ⟨ho.state, ho.active⟩
  · rw [htimed] at hno
    contradiction

/-- A step on a cluster that still sends: the time it has taken ends it only together with the
reports about every packet it sent. -/
lemma step_probing (h : Settled s.prober) (hs : s.prober.probe.state = .probing) (scan : Scan)
    (hdue : probeClusterTimeoutUs < nowUs - s.prober.probe.startTimeUs) :
    Ended (s.step D scan nowUs) ↔
      s.prober.gcc.isOverusing D ∨ scan.rtxAvailable = false ∨ 0 < scan.rtxQueueCount ∨
        (0 < s.prober.probe.startTimeUs ∧ s.prober.probe.allFeedback) := by
  have hne : s.prober.probe.state ≠ .idle := by simp [hs]
  have htimed : s.prober.probe.timedOut nowUs = false := by
    simp [Probe.timedOut, h.probing hs]
  unfold step
  rw [hs]
  dsimp only
  by_cases habort : s.prober.gcc.isOverusing D ∨ scan.rtxAvailable = false ∨ 0 < scan.rtxQueueCount
  · rw [if_pos habort]
    have ho := (over_abort hne nowUs).1
    exact iff_of_true ⟨ho.state, ho.active⟩ (by tauto)
  rw [if_neg habort]
  have hover : s.prober.gcc.isOverusing D = false := by
    simpa using (not_or.1 habort).1
  by_cases hstart : 0 < s.prober.probe.startTimeUs
  · rw [if_pos ⟨hstart, hdue⟩]
    rcases finishCluster_spec D hne (h.running hne) nowUs with ⟨hwhy, ho⟩ | ⟨-, hall, -, heq⟩
    · rw [hover, htimed] at hwhy
      exact iff_of_true ⟨ho.state, ho.active⟩ (by simp_all)
    · rw [heq]
      exact iff_of_false (fun he => hne he.1) (by simp_all)
  · rw [if_neg (by tauto)]
    refine iff_of_false (fun hended => ?_) (by tauto)
    obtain ⟨k, hg⟩ := generate_spec scan.twccNegotiated Paced.maxDrainPerScan scan.packets s
    have hstate := hended.1
    unfold endSending at hstate
    split_ifs at hstate
    rw [hg.probe] at hstate
    exact hne hstate

/-- **A probe ends.** In every run, a step on a cluster that is past its time leaves the
controller idle and the estimator's flag down exactly under the condition `Ends`. -/
theorem overdue_cluster_ends (ops : List Op) (scan : Scan) (nowUs : ℤ)
    (hdue : Overdue (run D ops) nowUs) :
    Ended ((run D ops).apply D (.step scan nowUs)) ↔ Ends D (run D ops) scan := by
  have h := settled_run D ops
  generalize run D ops = s at *
  change Ended (s.step D scan nowUs) ↔ _
  rcases hdue with ⟨hs, hdue⟩ | ⟨hs, hdue⟩
  · rw [step_probing D h hs scan hdue]
    simp [Ends, hs]
  · rw [step_waiting D h hs scan hdue]
    simp [Ends, hs]

def clearScan (packets : List Built) : Scan where
  rtxAvailable := true
  twccNegotiated := true
  rtxQueueCount := 0
  mediaBacklog := 0
  packets := packets

/-- A probe packet of `encLen` bytes that was built, encrypted and queued. -/
def madeProbe (encLen : ℕ) : Built where
  full := false
  built := true
  status := true
  encLen := encLen
  queued := true

/-- A cluster that waits is ended half a second after its last packet. -/
theorem overdue_cluster_ends_waiting :
    let ops := [Op.startProbe 1000, .step (clearScan (List.replicate 4 (madeProbe 2000))) 2000]
    Overdue (run calm ops) 600000 ∧
      Ended ((run calm ops).apply calm (.step (clearScan []) 600000)) := by
  have hdue : Overdue (run calm
      [.startProbe 1000, .step (clearScan (List.replicate 4 (madeProbe 2000))) 2000]) 600000 := by
    decide +kernel
  exact ⟨hdue, (overdue_cluster_ends calm _ (clearScan []) 600000 hdue).2 (by decide +kernel)⟩

/-- A cluster whose packets find no room in the queue is never ended by its time. -/
theorem probing_past_timeout :
    let s := run calm [.startProbe 1000]
    Overdue s 600000 ∧ (s.apply calm (.step (clearScan []) 600000)).prober.probe.state = .probing ∧
      ¬ Ended (s.apply calm (.step (clearScan []) 600000)) := by
  decide +kernel

end Sender

end MezonSfu.Congestion
