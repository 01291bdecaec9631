import MezonSfu.ProbeClusters

/-!
A cluster is judged when every packet sent in it was reported. The controller only compares two
counters; that they count the same packets rests on the accounts: a probe is counted at most once,
and only for its own cluster. The comparison can also hold while the cluster is still sending.
-/

namespace MezonSfu.Congestion

open Prober List

/-- The packets of the current cluster, and how many reports about them were counted. -/
structure Clusters (p : Probe) (l : Log) : Prop where
  number : p.clusterId = p.clustersStarted
  old : ∀ (packet : ℕ) (c : ℕ), l.sent[packet]? = some (.probe c) → c ≤ p.clusterId
  own : ∀ packet : ℕ, l.sent[packet]? = some (.probe p.clusterId) → packet ∈ l.cluster
  cluster_lt : ∀ packet ∈ l.cluster, packet < l.sent.length
  cluster_nodup : l.cluster.Nodup
  cluster_length : l.cluster.length = p.packetsSent
  reports : p.packetsReceived + p.packetsLost = Sender.tally l.counted (.probe p.clusterId)
  reported : ∀ c ∈ l.counted, c.1 ∈ l.reported

namespace Clusters

variable {p p' : Probe} {l l' : Log}

lemma congr (h : Clusters p l) (hid : p'.clusterId = p.clusterId)
    (hstart : p'.clustersStarted = p.clustersStarted) (hsent : p'.packetsSent = p.packetsSent)
    (hrep : p'.packetsReceived + p'.packetsLost = p.packetsReceived + p.packetsLost) :
    Clusters p' l where
  number := by rw [hid, hstart, h.number]
  old := by rw [hid]; exact h.old
  own := by rw [hid]; exact h.own
  cluster_lt := h.cluster_lt
  cluster_nodup := h.cluster_nodup
  cluster_length := by rw [hsent, h.cluster_length]
  reports := by rw [hid, hrep, h.reports]
  reported := h.reported

lemma log_congr (h : Clusters p l) (hs : l'.sent = l.sent) (hc : l'.counted = l.counted)
    (hr : l'.reported = l.reported) (hcl : l'.cluster = l.cluster) : Clusters p l' where
  number := h.number
  old := by rw [hs]; exact h.old
  own := by rw [hs, hcl]; exact h.own
  cluster_lt := by rw [hs, hcl]; exact h.cluster_lt
  cluster_nodup := by rw [hcl]; exact h.cluster_nodup
  cluster_length := by rw [hcl]; exact h.cluster_length
  reports := by rw [hc]; exact h.reports
  reported := by rw [hc, hr]; exact h.reported

/-- More packets get a number: those of the current cluster join it, in order. -/
lemma number_more (h : Clusters p l) {k : ℕ} {more : List Sent}
    (hmore : more = List.replicate k (.probe p.clusterId) ∨ k = 0 ∧ more = [.media])
    (hs : l'.sent = l.sent ++ more) (hcl : l'.cluster = l.cluster ++ List.range' l.sent.length k)
    (hc : l'.counted = l.counted) (hr : l'.reported = l.reported) :
    Clusters { p with packetsSent := p.packetsSent + k } l' := by
  have hk : k ≤ more.length := by
    rcases hmore with rfl | ⟨rfl, rfl⟩ <;> simp
  have hkind : ∀ (packet c : ℕ), l'.sent[packet]? = some (.probe c) →
      l.sent[packet]? = some (.probe c) ∨
        c = p.clusterId ∧ l.sent.length ≤ packet ∧ packet < l.sent.length + k := by
    intro packet c hp
    rw [hs] at hp
    by_cases hlt : packet < l.sent.length
    · exact .inl (by rwa [List.getElem?_append_left hlt] at hp)
    rw [List.getElem?_append_right (by omega)] at hp
    rcases hmore with rfl | ⟨rfl, rfl⟩
    · obtain ⟨hi, heq⟩ := List.getElem?_eq_some_iff.1 hp
      rw [getElem_replicate, Sent.probe.injEq] at heq
      rw [length_replicate] at hi
      exact .inr ⟨heq.symm, by omega, by omega⟩
    · obtain ⟨hi, heq⟩ := List.getElem?_eq_some_iff.1 hp
      simp at heq
  constructor
  case number => exact h.number
  case old =>
    intro packet c hp
    rcases hkind packet c hp with hold | ⟨rfl, -, -⟩
    · exact h.old packet c hold
    · exact le_rfl
  case own =>
    intro packet hp
    rw [hcl]
    rcases hkind packet _ hp with hold | ⟨-, hge, hlt⟩
    · exact mem_append_left _ (h.own packet hold)
    · exact mem_append_right _ (mem_range'_1.2 ⟨hge, hlt⟩)
  case cluster_lt =>
    intro packet hp
    rw [hcl] at hp
    rw [hs, length_append]
    rcases mem_append.1 hp with hp | hp
    · exact Nat.lt_of_lt_of_le (h.cluster_lt packet hp) (Nat.le_add_right _ _)
    · have := mem_range'_1.1 hp
      omega
  case cluster_nodup =>
    rw [hcl, nodup_append]
    refine ⟨h.cluster_nodup, nodup_range', ?_⟩
    intro a ha b hb heq
    have hlt := h.cluster_lt a ha
    have := mem_range'_1.1 hb
    omega
  case cluster_length =>
    rw [hcl, length_append, length_range', h.cluster_length]
  case reports => rw [hc]; exact h.reports
  case reported => rw [hc, hr]; exact h.reported

end Clusters

namespace Sender

open Twcc

variable {T : Type*} (D : Detector T)

def countedFor (counted : List (ℕ × Count)) (c : ℕ) : List ℕ :=
  (counted.filter fun x => x.2 = .probe c).map Prod.fst

lemma length_countedFor (counted : List (ℕ × Count)) (c : ℕ) :
    (countedFor counted c).length = tally counted (.probe c) := by
  induction counted with
  | nil => rfl
  | cons x l ih =>
    by_cases hx : x.2 = .probe c <;> simp_all [countedFor, tally]

lemma mem_countedFor {counted : List (ℕ × Count)} {c packet : ℕ} :
    packet ∈ countedFor counted c ↔ (packet, .probe c) ∈ counted := by
  simp [countedFor]

lemma count_countedFor (counted : List (ℕ × Count)) (c packet : ℕ) :
    (countedFor counted c).count packet = counted.count (packet, .probe c) := by
  induction counted with
  | nil => rfl
  | cons x l ih =>
    obtain ⟨a, b⟩ := x
    by_cases hb : b = .probe c <;> simp_all [countedFor, count_cons]

variable {q : List QueuedProbe} {l : Log} {h : History} {c c' : Prober T} {s : Sender T}

/-- When the two counters agree, every packet of the cluster was reported: the packets that were
counted for it are all different and belong to it. -/
lemma all_reported {p : Probe} (hk : Kept h q l) (hc : Clusters p l) (hall : p.allFeedback) :
    ∀ packet ∈ l.cluster, packet ∈ l.reported := by
  have hown : ∀ packet ∈ countedFor l.counted p.clusterId, packet ∈ l.cluster := by
    intro packet hp
    exact hc.own packet (hk.counted_probe (mem_countedFor.1 hp))
  have hnodup : (countedFor l.counted p.clusterId).Nodup := by
    rw [nodup_iff_count_le_one]
    intro packet
    rw [count_countedFor]
    exact hk.count_le_one packet _
  have hle : l.cluster.length ≤ (countedFor l.counted p.clusterId).length := by
    simp only [Probe.allFeedback, Bool.and_eq_true, decide_eq_true_eq] at hall
    rw [length_countedFor, ← hc.reports, hc.cluster_length]
    exact hall.2
  -- a list without repetition inside another one that is no longer has all of its elements
  have hperm := (subperm_of_subset hnodup (fun x hx => hown x hx)).perm_of_length_le hle
  intro packet hp
  exact hc.reported _ (mem_countedFor.1 (hperm.mem_iff.2 hp))

/-! ### The packets of the cluster along a run -/

lemma clusters_of_over (h : Clusters c.probe l) (ho : Over c c') : Clusters c'.probe l := by
  refine h.congr ?_ ?_ ?_ ?_ <;> rw [ho.probe]

lemma clusters_startProbe (h : Clusters s.prober.probe s.log)
    (hk : Kept s.history s.pacedProbe s.log) (nowUs : ℤ)
    (hlt : (s.startProbe nowUs).prober.probe.clustersStarted < 2 ^ 32) :
    Clusters (s.startProbe nowUs).prober.probe (s.startProbe nowUs).log := by
  have hprober : (s.startProbe nowUs).prober = s.prober.startProbe nowUs := rfl
  have hlog : (s.startProbe nowUs).log =
      if (s.prober.startProbe nowUs).probe.clustersStarted = s.prober.probe.clustersStarted
      then s.log else { s.log with cluster := [] } := rfl
  rw [hprober] at hlt ⊢
  rw [hlog]
  rcases startProbe_spec s.prober nowUs with heq | ⟨-, hst⟩
  · rw [heq, if_pos rfl]
    exact h
  rw [if_neg (by rw [hst.clustersStarted]; omega)]
  rw [hst.clustersStarted] at hlt
  -- the numbers have not come round yet
  have hid : (s.prober.startProbe nowUs).probe.clusterId = s.prober.probe.clusterId + 1 := by
    have hmod : (s.prober.probe.clusterId + 1) % 2 ^ 32 = s.prober.probe.clusterId + 1 :=
      Nat.mod_eq_of_lt (by rw [h.number]; exact hlt)
    rw [hst.clusterId, nextClusterId, hmod, if_neg (by omega)]
  have hnone : ∀ packet : ℕ,
      s.log.sent[packet]? ≠ some (.probe (s.prober.probe.clusterId + 1)) := by
    intro packet hp
    have := h.old packet _ hp
    omega
  constructor
  case number => rw [hid, hst.clustersStarted, h.number]
  case old =>
    intro packet c hp
    rw [hid]
    exact (h.old packet c hp).trans (Nat.le_succ _)
  case own =>
    intro packet hp
    rw [hid] at hp
    exact absurd hp (hnone packet)
  case cluster_lt => simp
  case cluster_nodup => exact nodup_nil
  case cluster_length => rw [hst.packetsSent]; rfl
  case reports =>
    rw [hst.reports, hid, ← length_countedFor, eq_comm, length_eq_zero_iff,
      eq_nil_iff_forall_not_mem]
    intro packet hp
    exact hnone packet (hk.counted_probe (mem_countedFor.1 hp))
  case reported => exact h.reported

lemma clusters_tallyBatch (h : Clusters s.prober.probe s.log) (batch : List Status) :
    Clusters (tallyBatch D s batch).sender.prober.probe (tallyBatch D s batch).sender.log := by
  have hc := counting_tallyBatch D s batch
  generalize tallyBatch D s batch = t at *
  have hid : t.sender.prober.probe.clusterId = s.prober.probe.clusterId := by rw [hc.probe]
  constructor
  case number =>
    rw [hc.probe]
    exact h.number
  case old => rw [hid, hc.sent]; exact h.old
  case own => rw [hid, hc.sent, hc.cluster]; exact h.own
  case cluster_lt => rw [hc.sent, hc.cluster]; exact h.cluster_lt
  case cluster_nodup => rw [hc.cluster]; exact h.cluster_nodup
  case cluster_length =>
    rw [hc.cluster, hc.probe]
    exact h.cluster_length
  case reports =>
    have h1 := hc.reports
    have h2 := h.reports
    rw [hid]
    omega
  case reported =>
    obtain ⟨new, hnew, hmem⟩ := hc.counted
    intro c hcm
    rw [hnew] at hcm
    rcases mem_append.1 hcm with hcm | hcm
    · exact hc.reported (h.reported c hcm)
    · exact (hmem c hcm).1

lemma clusters_abort (h : Clusters c.probe l) (nowUs : ℤ) : Clusters (c.abort nowUs).probe l := by
  by_cases hs : c.probe.state = .idle
  · unfold abort
    rwa [if_pos hs]
  · exact clusters_of_over h (over_abort hs nowUs).1

lemma clusters_finishCluster (h : Clusters c.probe l) (hc : Settled c) (nowUs : ℤ) :
    Clusters (c.finishCluster D nowUs).probe l := by
  by_cases hs : c.probe.state = .idle
  · rwa [finishCluster_idle D hs]
  · rcases finishCluster_spec D hs (hc.running hs) nowUs with ⟨-, ho⟩ | ⟨-, -, -, heq⟩
    · exact clusters_of_over h ho
    · rwa [heq]

/-- The sender before the check of `handle_twcc_member`. -/
def beforeCheck (s : Sender T) (batch : List Status) (currentTimeUs nowUs : ℤ) : Sender T :=
  (((tallyBatch D s batch).sender.raiseAnchor currentTimeUs).reportLoss
    (tallyBatch D s batch).freshLost (tallyBatch D s batch).freshTotal nowUs).1

/-- The reports are counted, and their loss may have aborted the cluster. -/
structure BeforeCheck (s : Sender T) (batch : List Status) (nowUs : ℤ) (r : Sender T) : Prop where
  log : r.log = (tallyBatch D s batch).sender.log
  probe : r.prober.probe = (tallyBatch D s batch).sender.prober.probe ∨
    r.prober.probe = ((tallyBatch D s batch).sender.prober.abort nowUs).probe
  settled : Settled s.prober → Settled r.prober

lemma beforeCheck_spec (s : Sender T) (batch : List Status) (currentTimeUs nowUs : ℤ) :
    BeforeCheck D s batch nowUs (beforeCheck D s batch currentTimeUs nowUs) := by
  refine ⟨(reportLoss_books _ _ _ nowUs).2.2, ?_, fun hs => ?_⟩
  · unfold beforeCheck reportLoss raiseAnchor
    split_ifs
    · dsimp only
      split_ifs
      · right
        unfold abort
        split_ifs <;> rfl
      · exact .inl rfl
    · exact .inl rfl
  · exact settled_reportLoss (s := (tallyBatch D s batch).sender.raiseAnchor currentTimeUs)
      (settled_tallyBatch D hs batch) _ _ nowUs

variable {D} {batch : List Status} {nowUs : ℤ} {r : Sender T}

lemma BeforeCheck.clusters (hb : BeforeCheck D s batch nowUs r)
    (h : Clusters s.prober.probe s.log) : Clusters r.prober.probe r.log := by
  have ht := clusters_tallyBatch D h batch
  rw [hb.log]
  rcases hb.probe with heq | heq
  · rw [heq]
    exact ht
  · rw [heq]
    exact clusters_abort ht nowUs

variable (D)

lemma clusters_step (h : Clusters s.prober.probe s.log) (hs : Settled s.prober)
    (hk : Kept s.history s.pacedProbe s.log) (scan : Scan) (nowUs : ℤ)
    (hlt : (s.step D scan nowUs).prober.probe.clustersStarted < 2 ^ 32) :
    Clusters (s.step D scan nowUs).prober.probe (s.step D scan nowUs).log := by
  revert hlt
  refine step_rule D (P := fun s => s.prober.probe.clustersStarted < 2 ^ 32 →
    Clusters s.prober.probe s.log) scan (fun _ => h) (clusters_startProbe h hk nowUs)
    (fun _ => clusters_abort h nowUs) (fun _ => clusters_finishCluster D h hs nowUs)
    fun _ g k hg _ _ => ?_
  have hcl := h.number_more (.inl rfl) hg.sent hg.cluster hg.counted hg.reported
  have hgc : Clusters g.prober.probe g.log := by
    refine hcl.congr ?_ ?_ ?_ ?_ <;> rw [hg.probe]
  unfold endSending
  split_ifs
  · exact hgc.congr rfl rfl rfl rfl
  · exact hgc

/-- The packets of the cluster are followed by every operation, as long as the numbers of the
clusters do not come round. -/
lemma clusters_apply (h : Clusters s.prober.probe s.log) (hs : Settled s.prober)
    (hk : Kept s.history s.pacedProbe s.log) (op : Op)
    (hlt : (s.apply D op).prober.probe.clustersStarted < 2 ^ 32) :
    Clusters (s.apply D op).prober.probe (s.apply D op).log := by
  cases op with
  | numberMedia => exact h
  | sendMedia seq sendTimeUs sizeBytes =>
    have hn : Clusters { s.prober.probe with packetsSent := s.prober.probe.packetsSent + 0 }
        (s.sendMedia seq sendTimeUs sizeBytes).log :=
      h.number_more (.inr ⟨rfl, rfl⟩) rfl (by simp [sendMedia]) rfl rfl
    exact hn.congr rfl rfl rfl rfl
  | drainProbe sent sendTimeUs =>
    obtain ⟨q, history, heq⟩ := drainProbe_eq s sent sendTimeUs
    rw [apply, heq]
    exact h
  | setUnmetDemand b => exact h.congr rfl rfl rfl rfl
  | startProbe nowUs => exact clusters_startProbe h hk nowUs hlt
  | step scan nowUs => exact clusters_step D h hs hk scan nowUs hlt
  | checkClusterDone nowUs =>
    change Clusters (s.prober.checkClusterDone D nowUs).1.probe s.log
    by_cases hst : s.prober.probe.state = .idle
    · unfold checkClusterDone
      rwa [if_pos hst]
    · rcases checkClusterDone_spec D hst (hs.running hst) nowUs with ⟨-, ho⟩ | ⟨-, -, -, heq⟩
      · exact clusters_of_over h ho
      · rwa [heq]
  | handleTwccMember member nowUs =>
    change Clusters (s.handleTwccMember D member nowUs).prober.probe
      (s.handleTwccMember D member nowUs).log
    unfold handleTwccMember
    split
    · exact h
    · next batch currentTimeUs hread =>
      have hb := beforeCheck_spec D s batch currentTimeUs nowUs
      exact (clusters_finishCluster D (hb.clusters h) (hb.settled hs) nowUs).log_congr rfl rfl rfl
        rfl

/-! ### The judgement -/

def Op.time : Op → Option ℤ
  | .step _ nowUs | .checkClusterDone nowUs | .handleTwccMember _ nowUs => some nowUs
  | _ => none

/-- The estimator sees no overuse, and the cluster does not time out. -/
def Undisturbed (s : Sender T) (op : Op) : Prop :=
  (s.apply D op).prober.gcc.isOverusing D = false ∧ ∀ nowUs ∈ op.time, ¬ Overdue s nowUs

instance (s : Sender T) (op : Op) : Decidable (Undisturbed D s op) :=
  inferInstanceAs (Decidable (_ ∧ ∀ _ ∈ op.time, _))

/-- Where the cluster is checked while it is still sending, some packet that it has sent is still
to be reported. -/
def StillOut (s : Sender T) : Op → Prop
  | .checkClusterDone _ => s.prober.probe.state = .probing →
      s.log.cluster = [] ∨ ∃ packet ∈ s.log.cluster, packet ∉ s.log.reported
  | .handleTwccMember member nowUs => s.prober.probe.state = .probing →
      s.log.cluster = [] ∨
        ∃ packet ∈ s.log.cluster, packet ∉ (s.handleTwccMember D member nowUs).log.reported
  | _ => True

instance (s : Sender T) : (op : Op) → Decidable (StillOut D s op)
  | .checkClusterDone _ | .handleTwccMember _ _ =>
    inferInstanceAs (Decidable (_ → _ ∨ ∃ packet ∈ s.log.cluster, _))
  | .numberMedia | .sendMedia _ _ _ | .drainProbe _ _ | .setUnmetDemand _ | .startProbe _
  | .step _ _ => isTrue trivial

def Complete (p : Probe) (l : Log) : Prop :=
  p.bytesTarget ≤ p.bytesSent ∧ ∀ packet ∈ l.cluster, packet ∈ l.reported

instance (p : Probe) (l : Log) : Decidable (Complete p l) :=
  inferInstanceAs (Decidable (_ ∧ ∀ packet ∈ l.cluster, _))

/-- A cluster that is neither overdue nor disturbed is ended by the check only when it is
complete. -/
lemma complete_of_ended {nowUs : ℤ} (hk : Kept h q l) (hcl : Clusters c.probe l) (hs : Settled c)
    (hover : c.gcc.isOverusing D = false) (hwait : c.probe.state = .waitingFeedback →
      ¬ probeClusterTimeoutUs < nowUs - c.probe.sendEndTimeUs) (hout : c.probe.state = .probing →
      l.cluster = [] ∨ ∃ packet ∈ l.cluster, packet ∉ l.reported) (hst : c.probe.state ≠ .idle)
    (hwhy : c.gcc.isOverusing D ∨ c.probe.allFeedback ∨
      c.probe.timedOut nowUs) : Complete c.probe l := by
  have htimed : c.probe.timedOut nowUs = false := by
    unfold Probe.timedOut
    cases hstate : c.probe.state with
    | idle => exact absurd hstate hst
    | probing => simp [hs.probing hstate]
    | waitingFeedback => simp [hwait hstate]
  have hall : c.probe.allFeedback := by
    simpa [hover, htimed] using hwhy
  have hrep := all_reported hk hcl hall
  refine ⟨?_, hrep⟩
  cases hstate : c.probe.state with
  | idle => exact absurd hstate hst
  | probing =>
    rcases hout hstate with hnil | ⟨packet, hp, hnot⟩
    · simp only [Probe.allFeedback, Bool.and_eq_true, decide_eq_true_eq] at hall
      have hlen := hcl.cluster_length
      rw [hnil, length_nil] at hlen
      omega
    · exact absurd (hrep packet hp) hnot
  | waitingFeedback => exact hs.waiting hstate

lemma complete_of_over {l' : Log} (h : Complete c.probe l) (ho : Over c c')
    (hcl : l'.cluster = l.cluster) (hr : l'.reported = l.reported) : Complete c'.probe l' := by
  unfold Complete
  rw [ho.probe, hcl, hr]
  exact h

lemma isOverusing_over (ho : Over c c') : c'.gcc.isOverusing D = c.gcc.isOverusing D := by
  unfold Gcc.isOverusing Gcc.getUsage
  rw [ho.trendline]

variable {D} in
/-- Before its check, `handle_twcc_member` judges nothing; it may abort the cluster, and then
there is none to check. -/
lemma BeforeCheck.not_judged (hb : BeforeCheck D s batch nowUs r) :
    ¬ Judged s.prober.probe r.prober.probe ∧
      (r.prober.probe.state = .idle ∨ Reported s.prober.probe r.prober.probe) := by
  have hc := (counting_tallyBatch D s batch).probe
  have hprobe := hb.probe
  generalize tallyBatch D s batch = t at *
  have hkeep : ¬ Judged s.prober.probe t.sender.prober.probe := by
    rw [hc]
    exact fun hj => hj rfl
  rcases hprobe with heq | heq
  · rw [heq]
    exact ⟨hkeep, .inr hc⟩
  rw [heq]
  by_cases hst : t.sender.prober.probe.state = .idle
  · unfold abort
    rw [if_pos hst]
    exact ⟨hkeep, .inl hst⟩
  · obtain ⟨ho, hno⟩ := over_abort hst nowUs
    refine ⟨fun hj => hj ?_, .inl ho.state⟩
    exact (not_not.1 hno).trans (not_not.1 hkeep)

/-- The check of `handle_twcc_member` takes the sender from `r` to `v`. -/
lemma complete_of_judged_batch {v : Sender T} (hk : Kept s.history s.pacedProbe s.log)
    (hcl : Clusters s.prober.probe s.log) (hs : Settled s.prober)
    (hb : BeforeCheck D s batch nowUs r) (hprober : v.prober = r.prober.finishCluster D nowUs)
    (hcluster : v.log.cluster = r.log.cluster) (hreported : v.log.reported = r.log.reported)
    (hover : v.prober.gcc.isOverusing D = false) (hdue : ¬ Overdue s nowUs)
    (hout : s.prober.probe.state = .probing →
      s.log.cluster = [] ∨ ∃ packet ∈ s.log.cluster, packet ∉ v.log.reported)
    (hj : Judged s.prober.probe v.prober.probe) : Complete v.prober.probe v.log := by
  have hcount := counting_tallyBatch D s batch
  obtain ⟨hno, hstate⟩ := hb.not_judged
  have hset := hb.settled hs
  rw [hprober] at hj hover ⊢
  have hst : r.prober.probe.state ≠ .idle := by
    intro hidle
    rw [finishCluster_idle D hidle] at hj
    exact hno hj
  rcases finishCluster_spec D hst (hset.running hst) nowUs with ⟨hwhy, ho⟩ | ⟨-, -, -, heq⟩
  · have hrep : Reported s.prober.probe r.prober.probe := hstate.resolve_left hst
    have hsame : r.prober.probe.state = s.prober.probe.state := by rw [hrep]
    have hend : r.prober.probe.sendEndTimeUs = s.prober.probe.sendEndTimeUs := by rw [hrep]
    have hcl' : r.log.cluster = s.log.cluster := by rw [hb.log, hcount.cluster]
    have hkr := hcount.kept hk
    rw [← hb.log] at hkr
    rw [isOverusing_over D ho] at hover
    refine complete_of_over (complete_of_ended D hkr (hb.clusters hcl) hset hover ?_ ?_ hst hwhy) ho
      hcluster hreported
    · rw [hsame, hend]
      exact fun hw hlate => hdue (.inr ⟨hw, hlate⟩)
    · rw [hsame, hcl', ← hreported]
      exact hout
  · rw [heq] at hj
    exact absurd hj hno

lemma not_judged_startProbe (c : Prober T) (nowUs : ℤ) :
    ¬ Judged c.probe (c.startProbe nowUs).probe := by
  refine not_not.2 ?_
  rcases startProbe_spec c nowUs with heq | ⟨-, hst⟩
  · rw [heq]
  · rw [hst.clustersSucceeded, hst.clustersFailed]

lemma complete_of_judged (hk : Kept s.history s.pacedProbe s.log)
    (hcl : Clusters s.prober.probe s.log) (hs : Settled s.prober) (op : Op)
    (hop : Undisturbed D s op) (hout : StillOut D s op)
    (hj : Judged s.prober.probe (s.apply D op).prober.probe) :
    Complete (s.apply D op).prober.probe (s.apply D op).log := by
  cases op with
  | numberMedia | sendMedia | setUnmetDemand => exact absurd rfl hj
  | drainProbe sent sendTimeUs =>
    refine absurd ?_ hj
    obtain ⟨q, history, heq⟩ := drainProbe_eq s sent sendTimeUs
    rw [apply, heq]
  | startProbe nowUs => exact absurd hj (not_judged_startProbe s.prober nowUs)
  | step scan nowUs =>
    -- without a timeout a step starts, aborts or sends, but does not judge
    refine absurd ?_ hj
    have hdue := hop.2 nowUs rfl
    change (s.step D scan nowUs).prober.probe.clustersSucceeded +
      (s.step D scan nowUs).prober.probe.clustersFailed = _
    unfold step
    split
    · split_ifs
      · exact not_not.1 (not_judged_startProbe s.prober nowUs)
      · rfl
    · next hst =>
      split_ifs with habort htime
      · exact not_not.1 (over_abort (by simp [hst]) nowUs).2
      · exact absurd (.inl ⟨hst, htime.2⟩) hdue
      · obtain ⟨k, hg⟩ := generate_spec scan.twccNegotiated Paced.maxDrainPerScan scan.packets s
        unfold endSending
        split_ifs <;> rw [hg.probe]
    · next hst =>
      split_ifs with htime
      · exact absurd (.inr ⟨hst, htime.2⟩) hdue
      · rfl
  | checkClusterDone nowUs =>
    have hdue := hop.2 nowUs rfl
    have hover := hop.1
    change Judged _ (s.prober.checkClusterDone D nowUs).1.probe at hj
    change Gcc.isOverusing D (s.prober.checkClusterDone D nowUs).1.gcc = false at hover
    by_cases hst : s.prober.probe.state = .idle
    · refine absurd ?_ hj
      unfold checkClusterDone
      rw [if_pos hst]
    rcases checkClusterDone_spec D hst (hs.running hst) nowUs with ⟨hwhy, ho⟩ | ⟨-, -, -, heq⟩
    · rw [isOverusing_over D ho] at hover
      refine complete_of_over (complete_of_ended D hk hcl hs hover ?_ hout hst hwhy) ho rfl rfl
      exact fun hw hlate => hdue (.inr ⟨hw, hlate⟩)
    · rw [heq] at hj
      exact absurd rfl hj
  | handleTwccMember member nowUs =>
    have hdue := hop.2 nowUs rfl
    have hover := hop.1
    change Judged _ (s.handleTwccMember D member nowUs).prober.probe at hj
    change Gcc.isOverusing D (s.handleTwccMember D member nowUs).prober.gcc = false at hover
    change Complete (s.handleTwccMember D member nowUs).prober.probe
      (s.handleTwccMember D member nowUs).log
    unfold StillOut at hout
    unfold handleTwccMember at hj hover hout ⊢
    split at hj
    · exact absurd rfl hj
    · next batch currentTimeUs hread =>
      simp only [hread] at hover hout ⊢
      exact complete_of_judged_batch D hk hcl hs (beforeCheck_spec D s batch currentTimeUs nowUs)
        rfl rfl rfl hover hdue hout hj

lemma clustersStarted_startProbe (c : Prober T) (nowUs : ℤ) :
    c.probe.clustersStarted ≤ (c.startProbe nowUs).probe.clustersStarted := by
  rcases startProbe_spec c nowUs with heq | ⟨-, hst⟩
  · rw [heq]
  · rw [hst.clustersStarted]
    exact Nat.le_succ _

lemma clustersStarted_abort (c : Prober T) (nowUs : ℤ) :
    (c.abort nowUs).probe.clustersStarted = c.probe.clustersStarted := by
  unfold abort
  split_ifs <;> rfl

lemma clustersStarted_finishCluster (c : Prober T) (nowUs : ℤ) :
    (c.finishCluster D nowUs).probe.clustersStarted = c.probe.clustersStarted ∧
      (c.checkClusterDone D nowUs).1.probe.clustersStarted = c.probe.clustersStarted := by
  have hcheck : (c.checkClusterDone D nowUs).1.probe.clustersStarted = c.probe.clustersStarted := by
    unfold checkClusterDone
    split_ifs <;> rfl
  refine ⟨?_, hcheck⟩
  unfold finishCluster
  split
  · next c' hc => rw [← hcheck, hc]
  · next c' bps hc => rw [← hcheck, hc]

lemma clustersStarted_le (s : Sender T) (op : Op) :
    s.prober.probe.clustersStarted ≤ (s.apply D op).prober.probe.clustersStarted := by
  cases op with
  | numberMedia | sendMedia | setUnmetDemand => exact le_rfl
  | drainProbe sent sendTimeUs =>
    obtain ⟨q, history, heq⟩ := drainProbe_eq s sent sendTimeUs
    rw [apply, heq]
  | startProbe nowUs => exact clustersStarted_startProbe s.prober nowUs
  | step scan nowUs =>
    refine step_rule D (P := fun s' => _ ≤ s'.prober.probe.clustersStarted) scan le_rfl
      (clustersStarted_startProbe _ nowUs) (clustersStarted_abort _ nowUs).ge
      (clustersStarted_finishCluster D _ nowUs).1.ge fun _ g k hg _ => ?_
    unfold endSending
    split_ifs <;> rw [hg.probe]
  | checkClusterDone nowUs => exact (clustersStarted_finishCluster D s.prober nowUs).2.ge
  | handleTwccMember member nowUs =>
    change _ ≤ (s.handleTwccMember D member nowUs).prober.probe.clustersStarted
    unfold handleTwccMember
    split
    · exact le_rfl
    next batch currentTimeUs hread =>
    have hcheck := (clustersStarted_finishCluster D
      (beforeCheck D s batch currentTimeUs nowUs).prober nowUs).1
    refine Nat.le_of_eq (Eq.symm (hcheck.trans ?_))
    have hc := (counting_tallyBatch D s batch).probe
    rcases (beforeCheck_spec D s batch currentTimeUs nowUs).probe with heq | heq
    · rw [heq, hc]
    · rw [heq, clustersStarted_abort, hc]

lemma clusters_run (ops : List Op) (hlt : (run D ops).prober.probe.clustersStarted < 2 ^ 32) :
    Clusters (run D ops).prober.probe (run D ops).log := by
  have hinit : Clusters (init D).prober.probe (init D).log := by
    constructor <;> simp [init, tally]
  refine (Runs.run_inv_budget (apply D) (f := fun s => s.prober.probe.clustersStarted)
    (I := fun s => Clusters s.prober.probe s.log ∧ Settled s.prober ∧
      Kept s.history s.pacedProbe s.log)
    (clustersStarted_le D) ?_ ⟨hinit, settled_run D [], kept_run D []⟩ hlt).1
  rintro s op ⟨hcl, hs, hk⟩ hop
  exact ⟨clusters_apply D hcl hs hk op hop, settled_apply D hs op, kept_apply D hk op⟩

/-- **A cluster is judged when it is complete**: every step of a run that counts a cluster as
succeeded or failed, under no overuse and before any timeout, finds all its bytes sent and all
its packets reported, unless it came to the check while the cluster was still sending and every
packet sent so far had been reported. -/
theorem probe_judged_complete (ops : List Op) (op : Op) (hop : Undisturbed D (run D ops) op)
    (hout : StillOut D (run D ops) op)
    (hids : (run D ops).prober.probe.clustersStarted < 2 ^ 32)
    (hj : Judged (run D ops).prober.probe ((run D ops).apply D op).prober.probe) :
    Complete ((run D ops).apply D op).prober.probe ((run D ops).apply D op).log :=
  complete_of_judged D (kept_run D ops) (clusters_run D ops hids) (settled_run D ops) op hop hout hj

def sentCluster : List Op :=
  [.startProbe 1000, .step (clearScan (List.replicate 4 (madeProbe 2000))) 2000] ++
    List.replicate 4 (.drainProbe true 3000)

/-- The report about the last of the four packets lets the cluster be judged. -/
theorem probe_judged_complete_four :
    let ops := sentCluster ++ [0, 1, 2].map fun seq => .handleTwccMember (oneStatus seq false) 4000
    let op := Op.handleTwccMember (oneStatus 3 false) 4000
    Judged (run calm ops).prober.probe ((run calm ops).apply calm op).prober.probe ∧
      Complete ((run calm ops).apply calm op).prober.probe ((run calm ops).apply calm op).log := by
  have hj : Judged (run calm (sentCluster ++
      [0, 1, 2].map fun seq => .handleTwccMember (oneStatus seq false) 4000)).prober.probe
      ((run calm (sentCluster ++
        [0, 1, 2].map fun seq => .handleTwccMember (oneStatus seq false) 4000)).apply calm
        (.handleTwccMember (oneStatus 3 false) 4000)).prober.probe := by
    decide +kernel
  exact ⟨hj, probe_judged_complete calm _ _ (by decide +kernel) (by decide +kernel)
    (by decide +kernel) hj⟩

/-- The queue had room for one packet of the cluster; its report fails the cluster while most of
it is still to be sent. -/
theorem probe_judged_while_sending :
    let ops := [Op.startProbe 1000, .step (clearScan [madeProbe 300]) 2000, .drainProbe true 3000]
    let op := Op.handleTwccMember (oneStatus 0 false) 4000
    Runs.Along (apply calm) (Undisturbed calm) (init calm) (ops ++ [op]) ∧
      Judged (run calm ops).prober.probe ((run calm ops).apply calm op).prober.probe ∧
      ¬ Complete ((run calm ops).apply calm op).prober.probe
        ((run calm ops).apply calm op).log := by
  decide +kernel

end Sender

end MezonSfu.Congestion
