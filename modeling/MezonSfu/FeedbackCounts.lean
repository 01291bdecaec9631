import MezonSfu.FeedbackAccount
import MezonSfu.TwccSound

/-!
Every packet is counted once. Feedback may come in any order and any number of times; a status
either changes nothing or moves the account of one packet in the ring one mark further (`Turn`),
and a batch is a sequence of such turns (`Counting`).
-/

namespace MezonSfu.Congestion

open Function List

namespace Sender

open Bytes Twcc

variable {T : Type*} (D : Detector T)

/-! ### One status -/

/-- A status that says lost: only the first report about a packet that is in the ring matters. -/
lemma countLost_eq (t : Tally T) (seq : ℕ) :
    countLost t seq =
      if t.sender.history.Holds seq ∧ (t.sender.history.entry seq).receivedConsumed = false ∧
          (t.sender.history.entry seq).lossReported = false then
        let s := t.sender
        let e := s.history.entry seq
        let marked := s.history.set seq { e with lossReported := true }
        if e.isProbe then
          { t with
            sender := { s with
              history := marked
              prober := { s.prober with probe := s.prober.probe.onPacketLost e.probeClusterId }
              log := noteProbe s.prober.probe (s.log.report e.packet) e }
            fresh := t.fresh + 1 }
        else
          { sender := { s with
              history := marked
              log := ((s.log.report e.packet).count e.packet .freshTotal).count e.packet
                .freshLost }
            freshLost := t.freshLost + 1
            freshTotal := t.freshTotal + 1
            fresh := t.fresh + 1 }
      else t := by
  unfold countLost History.reportLossOnce
  by_cases h : t.sender.history.Holds seq ∧
      (t.sender.history.entry seq).receivedConsumed = false ∧
      (t.sender.history.entry seq).lossReported = false
  · have hl : t.sender.history.lookupExt seq = some (t.sender.history.entry seq) := if_pos h.1
    simp only [if_pos h, hl, Option.getD_some]
  · simp only [if_neg h]

/-- A log that a report leaves: the packet is reported, and counted for `new`. -/
structure Noted (l m : Log) (packet : ℕ) (new : List Count) : Prop where
  sent : m.sent = l.sent
  counted : m.counted = l.counted ++ new.map (packet, ·)
  reported : m.reported = l.reported ++ [packet]
  cluster : m.cluster = l.cluster
  feedbacks : m.feedbacks = l.feedbacks

/-- What the controller counts a report about the entry for. -/
def probeCount (p : Probe) (e : HistoryEntry) : List Count :=
  if p.counts e.probeClusterId then [.probe e.probeClusterId] else []

lemma probeCount_cases (p : Probe) (e : HistoryEntry) :
    probeCount p e = [] ∨ probeCount p e = [.probe e.probeClusterId] := by
  unfold probeCount
  split_ifs
  · exact .inr rfl
  · exact .inl rfl

variable {l m : Log} {e : HistoryEntry} {packet seq : ℕ} {new : List Count} {t t' : Tally T}
  {s : Sender T}

lemma noted_noteProbe (h : Noted l m packet new) (p : Probe) (he : e.packet = packet) :
    Noted l (noteProbe p m e) packet (new ++ probeCount p e) := by
  unfold noteProbe probeCount
  split_ifs with hc
  · have hid : p.clusterId = e.probeClusterId := by
      simp only [Probe.counts, Bool.and_eq_true, decide_eq_true_eq] at hc
      exact hc.2
    refine { h with counted := ?_ }
    simp [Log.count, h.counted, he, hid]
  · simpa using h

lemma noted_report (l : Log) (packet : ℕ) : Noted l (l.report packet) packet [] :=
  ⟨rfl, by simp [Log.report], rfl, rfl, rfl⟩

lemma noted_count (h : Noted l m packet new) (c : Count) :
    Noted l (m.count packet c) packet (new ++ [c]) :=
  ⟨h.sent, by simp [Log.count, h.counted], h.reported, h.cluster, h.feedbacks⟩

/-- Only what feedback says about the packets of the cluster differs. -/
def Reported (p p' : Probe) : Prop :=
  p' = { p with
    packetsReceived := p'.packetsReceived, bytesReceived := p'.bytesReceived
    firstRecvUs := p'.firstRecvUs, lastRecvUs := p'.lastRecvUs, packetsLost := p'.packetsLost }

/-- What a status does that is counted: it marks the entry of `seq`, whose packet is counted for
`new`. -/
structure Turn (t t' : Tally T) (seq : ℕ) (e : HistoryEntry) (new : List Count) : Prop where
  holds : t.sender.history.Holds seq
  history : t'.sender.history = t.sender.history.set seq e
  valid : e.valid = true
  packet : e.packet = (t.sender.history.entry seq).packet
  kind : e.kind = (t.sender.history.entry seq).kind
  queue : t'.sender.pacedProbe = t.sender.pacedProbe
  noted : Noted t.sender.log t'.sender.log e.packet new
  account : ∀ l, Account e.kind (t.sender.history.entry seq).lossReported
    (t.sender.history.entry seq).receivedConsumed l →
    Account e.kind e.lossReported e.receivedConsumed (l ++ new)
  probe : Reported t.sender.prober.probe t'.sender.prober.probe
  reports : t'.sender.prober.probe.packetsReceived + t'.sender.prober.probe.packetsLost =
    t.sender.prober.probe.packetsReceived + t.sender.prober.probe.packetsLost +
      new.count (.probe t.sender.prober.probe.clusterId)
  windows : Gcc.SameWindows t.sender.prober.gcc.aimd t'.sender.prober.gcc.aimd
  freshTotal : t'.freshTotal = t.freshTotal + new.count .freshTotal
  freshLost : t'.freshLost = t.freshLost + new.count .freshLost
  lost_le : new.count .freshLost ≤ new.count .freshTotal
  fresh : t.fresh + new.count .freshLost ≤ t'.fresh

lemma count_probeCount (p : Probe) (e : HistoryEntry) :
    (probeCount p e).count (.probe p.clusterId) = if p.counts e.probeClusterId then 1 else 0 := by
  unfold probeCount
  split_ifs with hc
  · have hid : p.clusterId = e.probeClusterId := by
      simp only [Probe.counts, Bool.and_eq_true, decide_eq_true_eq] at hc
      exact hc.2
    simp [hid]
  · rfl

lemma countLost_turn (t : Tally T) (seq : ℕ) :
    countLost t seq = t ∨ ∃ e new, Turn t (countLost t seq) seq e new := by
  rw [countLost_eq]
  dsimp only
  split_ifs with h hp
  · -- a probe
    right
    obtain ⟨hh, hr, hl⟩ := h
    set e := t.sender.history.entry seq
    have hc := probeCount_cases t.sender.prober.probe e
    refine ⟨{ e with lossReported := true }, probeCount t.sender.prober.probe e, hh, rfl, hh.1,
      rfl, rfl, rfl, ?_, ?_, ?_, ?_, .refl _, ?_, ?_, ?_, ?_⟩
    · have hn := noted_noteProbe (noted_report t.sender.log e.packet) t.sender.prober.probe
        (e := e) rfl
      simpa using hn
    · intro l ha
      have hkind : HistoryEntry.kind { e with lossReported := true } = .probe e.probeClusterId :=
        if_pos hp
      rw [hkind, hr] at ha ⊢
      rw [hl] at ha
      cases ha
      exact .probeLost _ (probeCount_cases _ _)
    · unfold Probe.onPacketLost Reported
      split_ifs <;> rfl
    · rw [count_probeCount]
      unfold Probe.onPacketLost
      split_ifs
      · dsimp only
        omega
      · rfl
    all_goals rcases hc with hc | hc <;> simp [hc]
  · -- a media packet
    right
    obtain ⟨hh, hr, hl⟩ := h
    set e := t.sender.history.entry seq
    refine ⟨{ e with lossReported := true }, [.freshTotal, .freshLost], hh, rfl, hh.1,
      rfl, rfl, rfl, ?_, ?_, rfl, by simp, .refl _, by simp, by simp, by simp, by simp⟩
    · exact noted_count (noted_count (noted_report t.sender.log e.packet) .freshTotal) .freshLost
    intro l ha
    have hkind : HistoryEntry.kind { e with lossReported := true } = .media := if_neg hp
    rw [hkind, hr] at ha ⊢
    rw [hl] at ha
    cases ha
    exact .mediaLost
  · exact .inl rfl

lemma countReceived_turn (t : Tally T) (status : Status) :
    countReceived D t status = t ∨
      ∃ e new, Turn t (countReceived D t status) status.sequenceNumber e new := by
  unfold countReceived History.consumeReceivedExt
  by_cases h : t.sender.history.Holds status.sequenceNumber ∧
      (t.sender.history.entry status.sequenceNumber).receivedConsumed = false
  · right
    simp only [if_pos h]
    obtain ⟨hh, hr⟩ := h
    set e := t.sender.history.entry status.sequenceNumber with he
    by_cases hl : e.lossReported
    · -- reported lost before: only the estimator sees it
      refine ⟨{ e with receivedConsumed := true }, [.estimator], hh, rfl, hh.1, rfl, rfl, rfl,
        ?_, ?_, ?_, by simp [hl], Gcc.sameWindows_processTwccPacket D _ _, by simp [hl], by simp,
        by simp, by simp [hl]⟩
      · simpa [hl] using noted_count (noted_report t.sender.log e.packet) .estimator
      · intro l ha
        rw [hr] at ha
        rw [hl] at ha ⊢
        exact ha.late
      · simp [hl, Reported]
    · have hl' : e.lossReported = false := by simpa using hl
      by_cases hp : e.isProbe
      · refine ⟨{ e with receivedConsumed := true },
          .estimator :: probeCount t.sender.prober.probe e, hh, rfl, hh.1, rfl, rfl, rfl,
          ?_, ?_, ?_, ?_, Gcc.sameWindows_processTwccPacket D _ _, ?_, ?_, ?_, ?_⟩
        · have hn := noted_noteProbe (noted_count (noted_report t.sender.log e.packet) .estimator)
            t.sender.prober.probe (e := e) rfl
          simpa [hl', hp] using hn
        · intro l ha
          have hkind : HistoryEntry.kind { e with receivedConsumed := true } =
              .probe e.probeClusterId := if_pos hp
          rw [hkind, hr] at ha
          rw [hkind]
          rw [hl'] at ha ⊢
          cases ha
          exact .probeReceived _ (probeCount_cases _ _)
        · unfold Probe.onPacketReceived Reported
          split_ifs <;> rfl
        · have hc := count_probeCount t.sender.prober.probe e
          unfold Probe.onPacketReceived
          split_ifs with hcc <;> simp_all <;> omega
        all_goals
          rcases probeCount_cases t.sender.prober.probe e with h | h <;> simp [h, hp, hl']
      · have hp' : e.isProbe = false := by simpa using hp
        refine ⟨{ e with receivedConsumed := true }, [.estimator, .freshTotal], hh, rfl, hh.1,
          rfl, rfl, rfl, ?_, ?_, ?_, by simp [hp'], Gcc.sameWindows_processTwccPacket D _ _,
          by simp [hp', hl'], by simp, by simp, by simp [hl']⟩
        · have hn := noted_count (noted_count (noted_report t.sender.log e.packet) .estimator)
            .freshTotal
          simpa [hl', hp'] using hn
        · intro l ha
          have hkind : HistoryEntry.kind { e with receivedConsumed := true } = .media := if_neg hp
          rw [hkind, hr] at ha
          rw [hkind]
          rw [hl'] at ha ⊢
          cases ha
          exact .mediaReceived
        · simp [hp', Reported]
  · left
    simp only [if_neg h]

lemma countStatus_turn (t : Tally T) (status : Status) :
    countStatus D t status = t ∨
      ∃ e new, Turn t (countStatus D t status) status.sequenceNumber e new := by
  unfold countStatus
  split_ifs
  · exact countLost_turn t status.sequenceNumber
  · exact countReceived_turn D t status

/-! ### A whole batch -/

/-- How often anything was counted for `c`. -/
def tally (counted : List (ℕ × Count)) (c : Count) : ℕ := (counted.map Prod.snd).count c

lemma tally_append (l m : List (ℕ × Count)) (c : Count) :
    tally (l ++ m) c = tally l c + tally m c := by
  simp [tally]

lemma tally_map (packet : ℕ) (new : List Count) (c : Count) :
    tally (new.map (packet, ·)) c = new.count c := by
  simp [tally, comp_def]

/-- What counting the statuses of a batch has done so far to the sender `s` it began with. -/
structure Counting (s : Sender T) (t : Tally T) : Prop where
  kept : Kept s.history s.pacedProbe s.log → Kept t.sender.history t.sender.pacedProbe t.sender.log
  ring : ∀ i, (t.sender.history.entries i).valid = (s.history.entries i).valid ∧
    (t.sender.history.entries i).packet = (s.history.entries i).packet ∧
    (t.sender.history.entries i).kind = (s.history.entries i).kind
  queue : t.sender.pacedProbe = s.pacedProbe
  sent : t.sender.log.sent = s.log.sent
  cluster : t.sender.log.cluster = s.log.cluster
  feedbacks : t.sender.log.feedbacks = s.log.feedbacks
  counted : ∃ new, t.sender.log.counted = s.log.counted ++ new ∧
    ∀ c ∈ new, c.1 ∈ t.sender.log.reported ∧
      ∃ i, (s.history.entries i).valid = true ∧ (s.history.entries i).packet = c.1
  reported : s.log.reported ⊆ t.sender.log.reported
  probe : Reported s.prober.probe t.sender.prober.probe
  reports : t.sender.prober.probe.packetsReceived + t.sender.prober.probe.packetsLost +
      tally s.log.counted (.probe s.prober.probe.clusterId) =
    s.prober.probe.packetsReceived + s.prober.probe.packetsLost +
      tally t.sender.log.counted (.probe s.prober.probe.clusterId)
  windows : Gcc.SameWindows s.prober.gcc.aimd t.sender.prober.gcc.aimd
  freshTotal : tally t.sender.log.counted .freshTotal =
    tally s.log.counted .freshTotal + t.freshTotal
  freshLost : tally t.sender.log.counted .freshLost = tally s.log.counted .freshLost + t.freshLost
  lost_le : t.freshLost ≤ t.freshTotal ∧ t.freshLost ≤ t.fresh

lemma counting_start (s : Sender T) : Counting s ⟨s, 0, 0, 0⟩ where
  kept := id
  ring := fun _ => ⟨rfl, rfl, rfl⟩
  queue := rfl
  sent := rfl
  cluster := rfl
  feedbacks := rfl
  counted := ⟨[], by simp⟩
  reported := List.Subset.refl _
  probe := rfl
  reports := rfl
  windows := .refl _
  freshTotal := rfl
  freshLost := rfl
  lost_le := ⟨le_rfl, le_rfl⟩

lemma Turn.ring (h : Turn t t' seq e new) (i : ℕ) :
    let r := t'.sender.history.entries i
    r.valid = (t.sender.history.entries i).valid ∧ r.packet = (t.sender.history.entries i).packet ∧
      r.kind = (t.sender.history.entries i).kind := by
  rw [h.history]
  by_cases hi : i = seq % historyCapacity
  · subst hi
    simp only [History.set, update_self]
    exact ⟨h.valid.trans h.holds.1.symm, h.packet, h.kind⟩
  · simp only [History.set, update_of_ne hi, and_self]

lemma Turn.kept (h : Turn t t' seq e new)
    (hk : Kept t.sender.history t.sender.pacedProbe t.sender.log) :
    Kept t'.sender.history t'.sender.pacedProbe t'.sender.log := by
  rw [h.history, h.queue]
  refine hk.mark seq h.holds.1 h.packet h.kind ?_ h.noted.counted h.noted.sent
  refine h.account _ ?_
  rw [h.packet, h.kind]
  exact (hk.ring _ h.holds.1).2

lemma Counting.turn (hc : Counting s t) (h : Turn t t' seq e new) : Counting s t' := by
  have hcluster : t.sender.prober.probe.clusterId = s.prober.probe.clusterId := by
    rw [hc.probe]
  constructor
  case kept => exact fun hk => h.kept (hc.kept hk)
  case ring =>
    intro i
    obtain ⟨hv, hp, hk⟩ := h.ring i
    obtain ⟨hv', hp', hk'⟩ := hc.ring i
    exact ⟨hv.trans hv', hp.trans hp', hk.trans hk'⟩
  case queue => exact h.queue.trans hc.queue
  case sent => exact h.noted.sent.trans hc.sent
  case cluster => exact h.noted.cluster.trans hc.cluster
  case feedbacks => exact h.noted.feedbacks.trans hc.feedbacks
  case counted =>
    obtain ⟨old, hold, hmem⟩ := hc.counted
    refine ⟨old ++ new.map (e.packet, ·), ?_, ?_⟩
    · rw [h.noted.counted, hold, append_assoc]
    intro c hcm
    rw [h.noted.reported]
    rcases mem_append.1 hcm with hcm | hcm
    · exact ⟨mem_append_left _ (hmem c hcm).1, (hmem c hcm).2⟩
    · obtain ⟨n, -, rfl⟩ := mem_map.1 hcm
      refine ⟨mem_append_right _ (mem_singleton_self _), seq % historyCapacity, ?_⟩
      obtain ⟨hv, hp, -⟩ := hc.ring (seq % historyCapacity)
      exact ⟨hv.symm.trans h.holds.1, hp.symm.trans h.packet.symm⟩
  case reported =>
    rw [h.noted.reported]
    exact List.Subset.trans hc.reported (subset_append_left _ _)
  case probe =>
    have h1 := hc.probe
    have h2 := h.probe
    rw [h1] at h2
    exact h2
  case reports =>
    have h1 := hc.reports
    have h2 := h.reports
    rw [h.noted.counted, tally_append, tally_map]
    rw [hcluster] at h2
    omega
  case windows => exact hc.windows.trans h.windows
  case freshTotal =>
    rw [h.noted.counted, tally_append, tally_map, hc.freshTotal, h.freshTotal]
    omega
  case freshLost =>
    rw [h.noted.counted, tally_append, tally_map, hc.freshLost, h.freshLost]
    omega
  case lost_le =>
    have h1 := hc.lost_le
    have h2 := h.lost_le
    have h3 := h.fresh
    rw [h.freshLost, h.freshTotal]
    omega

lemma counting_batch (h : Counting s t) (batch : List Status) :
    Counting s (batch.foldl (countStatus D) t) := by
  induction batch generalizing t with
  | nil => exact h
  | cons status batch ih =>
    rw [foldl_cons]
    rcases countStatus_turn D t status with hsame | ⟨e, new, hturn⟩
    · rw [hsame]
      exact ih h
    · exact ih (h.turn hturn)

/-! ### A whole run -/

section

variable (hk : Kept s.history s.pacedProbe s.log)

include hk

lemma kept_sendMedia (seq : ℕ) (sendTimeUs : ℤ) (sizeBytes : ℕ) :
    let r := s.sendMedia seq sendTimeUs sizeBytes
    Kept r.history s.pacedProbe r.log := by
  refine (hk.number .media).record _ ?_ (hk.unsent _ le_rfl) rfl rfl ?_ ?_
  · exact List.getElem?_concat_length
  · exact fun i hv => (hk.sent_lt hv).ne
  · exact fun d hd => (hk.queued_lt hd).ne

lemma kept_drainProbe (sent : Bool) (sendTimeUs : ℤ) :
    let r := s.drainProbe sent sendTimeUs
    Kept r.history r.pacedProbe r.log := by
  unfold drainProbe
  split
  · exact hk
  next e q hq =>
  rw [hq] at hk
  have hhead := hk.queue e mem_cons_self
  split_ifs
  · refine hk.pop.record _ hhead.1 hhead.2 rfl rfl ?_ ?_
    · exact fun i hv => hk.apart i hv e mem_cons_self
    · intro d hd heq
      exact (nodup_cons.1 hk.queue_nodup).1 (mem_map.2 ⟨d, hd, heq⟩)
  · exact hk.pop

lemma kept_enqueueProbe (twccSeq encLen : ℕ) (twccWritten : Bool) :
    let r := s.enqueueProbe twccSeq encLen twccWritten
    Kept s.history r.pacedProbe r.log := by
  refine Kept.congr (l := { s.log with
    sent := s.log.sent ++ [.probe s.prober.probe.clusterId] }) ?_ rfl rfl
  refine (hk.number _).push ?_ (hk.unsent _ le_rfl) ?_ ?_
  · exact List.getElem?_concat_length
  · exact fun i hv => (hk.sent_lt hv).ne
  · exact fun d hd => (hk.queued_lt hd).ne

end

lemma kept_generate (twccWritten : Bool) (n : ℕ) (bs : List Built)
    (hk : Kept s.history s.pacedProbe s.log) :
    let r := generate twccWritten n bs s
    Kept r.history r.pacedProbe r.log := by
  induction n generalizing bs s with
  | zero => exact hk
  | succ n ih =>
    cases bs with
    | nil => exact hk
    | cons b bs =>
      unfold generate
      split_ifs
      · exact hk
      · refine ih bs ?_
        exact kept_enqueueProbe (s := { s with nextTwccSeq := (s.nextTwccSeq + 1) % 2 ^ 16 })
          hk s.nextTwccSeq b.encLen twccWritten
      · exact hk

lemma counting_tallyBatch (s : Sender T) (batch : List Status) :
    Counting s (tallyBatch D s batch) :=
  counting_batch D (counting_start s) batch

lemma reportLoss_books (s : Sender T) (freshLost freshTotal : ℕ) (nowUs : ℤ) :
    let r := s.reportLoss freshLost freshTotal nowUs
    r.1.history = s.history ∧ r.1.pacedProbe = s.pacedProbe ∧ r.1.log = s.log := by
  unfold reportLoss
  split_ifs <;> exact ⟨rfl, rfl, rfl⟩

lemma handleBatch_books (s : Sender T) (batch : List Status) (currentTimeUs nowUs : ℤ) :
    let t := tallyBatch D s batch
    let s' := s.handleBatch D batch currentTimeUs nowUs
    s'.history = t.sender.history ∧ s'.pacedProbe = t.sender.pacedProbe ∧
      s'.log = { t.sender.log with
        feedbacks := t.sender.log.feedbacks ++ [⟨t.fresh, t.freshLost, t.freshTotal,
          ((t.sender.raiseAnchor currentTimeUs).reportLoss t.freshLost t.freshTotal
            nowUs).2⟩] } := by
  dsimp only [handleBatch]
  obtain ⟨hh, hq, hl⟩ := reportLoss_books
    ((tallyBatch D s batch).sender.raiseAnchor currentTimeUs) (tallyBatch D s batch).freshLost
    (tallyBatch D s batch).freshTotal nowUs
  rw [hl]
  exact ⟨hh, hq, rfl⟩

section

variable (hk : Kept s.history s.pacedProbe s.log)

include hk

lemma kept_step (scan : Scan) (nowUs : ℤ) :
    let r := s.step D scan nowUs
    Kept r.history r.pacedProbe r.log := by
  have hstart : Kept s.history s.pacedProbe (s.startProbe nowUs).log := by
    refine hk.congr ?_ ?_ <;> · unfold startProbe; dsimp only; split_ifs <;> rfl
  refine step_rule D (P := fun s => Kept s.history s.pacedProbe s.log) scan hk hstart hk hk
    fun _ g k _ hgen => ?_
  have hg := hgen ▸ kept_generate _ _ _ hk
  unfold endSending
  split_ifs <;> exact hg

lemma kept_handleTwccMember (member : List UInt8) (nowUs : ℤ) :
    let r := s.handleTwccMember D member nowUs
    Kept r.history r.pacedProbe r.log := by
  dsimp only
  unfold handleTwccMember
  split
  · exact hk
  · next batch currentTimeUs hread =>
    obtain ⟨hh, hq, hl⟩ := handleBatch_books D s batch currentTimeUs nowUs
    rw [hh, hq, hl]
    exact ((counting_tallyBatch D s batch).kept hk).congr rfl rfl

lemma kept_apply (op : Op) :
    Kept (s.apply D op).history (s.apply D op).pacedProbe (s.apply D op).log := by
  cases op with
  | numberMedia => exact hk
  | sendMedia seq sendTimeUs sizeBytes => exact kept_sendMedia hk seq sendTimeUs sizeBytes
  | drainProbe sent sendTimeUs => exact kept_drainProbe hk sent sendTimeUs
  | setUnmetDemand b => exact hk
  | startProbe nowUs =>
    refine hk.congr ?_ ?_ <;> · unfold apply startProbe; dsimp only; split_ifs <;> rfl
  | step scan nowUs => exact kept_step D hk scan nowUs
  | checkClusterDone nowUs => exact hk
  | handleTwccMember member nowUs => exact kept_handleTwccMember D hk member nowUs

end

lemma kept_run (ops : List Op) :
    Kept (run D ops).history (run D ops).pacedProbe (run D ops).log := by
  refine Runs.run_inv (apply D) (I := fun s => Kept s.history s.pacedProbe s.log)
    (fun s op hk => kept_apply D hk op) ?_ ops
  refine ⟨?_, fun _ _ => rfl, ?_, ?_, ?_, nodup_nil, ?_⟩ <;> simp [init, History.init]

/-- A batch that could be collected whole consists of entries of the format. -/
lemma collect_sound (n : ℕ) {p : Parser} {l : List ℕ} {cs : List Chunk} (h : Stands p l cs)
    (hl : n ≤ l.length) (hsym : ∀ s ∈ l, s < 4) (hlen : (collect n p).1.length = n) :
    ∃ (es : List Entry) (rest : List UInt8), es.length = n ∧ es.map Entry.symbol <+: l ∧
      p.data.drop p.deltaOffset = es.flatMap Entry.deltaBytes ++ rest := by
  induction n generalizing p l cs with
  | zero => exact ⟨[], p.data.drop p.deltaOffset, rfl, by simp, by simp⟩
  | succ n ih =>
    cases l with
    | nil => simp at hl
    | cons s l =>
      unfold collect at hlen
      cases hnext : nextStatus p with
      | mk q o =>
        rw [hnext] at hlen
        cases o with
        | none => simp at hlen
        | some status =>
          obtain ⟨e, cs', he, hstands, hdata, hdrop⟩ :=
            nextStatus_sound h (hsym s mem_cons_self) hnext
          have hrec : (collect n q).1.length = n := by simpa using hlen
          obtain ⟨es, rest, hes, hpre, hbytes⟩ := ih hstands (by simpa using hl)
            (fun x hx => hsym x (mem_cons_of_mem s hx)) hrec
          refine ⟨e :: es, rest, by simp [hes], ?_, ?_⟩
          · rw [map_cons, he, cons_prefix_cons]
            exact ⟨rfl, hpre⟩
          · rw [hdrop, ← hdata, hbytes, flatMap_cons, append_assoc]

lemma nextStatus_count (p : Parser) : (nextStatus p).1.packetStatusCount = p.packetStatusCount := by
  have htake : ∀ q : Parser, q.takeSymbol.1.packetStatusCount = q.packetStatusCount := by
    intro q
    unfold Parser.takeSymbol
    split_ifs <;> rfl
  have hget : (getNextStatus p).1.packetStatusCount = p.packetStatusCount := by
    unfold getNextStatus
    split_ifs
    · rfl
    · exact htake p.loadChunk
    · exact htake p
  unfold nextStatus
  split_ifs
  · rfl
  rw [← hget]
  dsimp only [report]
  split_ifs
  · rfl
  · rfl
  · split <;> rfl

lemma collect_count (n : ℕ) (p : Parser) :
    (collect n p).2.packetStatusCount = p.packetStatusCount := by
  induction n generalizing p with
  | zero => rfl
  | succ n ih =>
    have hnext := nextStatus_count p
    unfold collect
    split
    · next q status heq =>
      rw [heq] at hnext
      exact (ih q).trans hnext
    · next q heq =>
      rw [heq] at hnext
      exact hnext

lemma symbols_lt (cs : List Chunk) : ∀ s ∈ cs.flatMap Chunk.symbols, s < 4 := by
  intro s hs
  obtain ⟨c, -, hc⟩ := mem_flatMap.1 hs
  cases c with
  | run symbol n pos lt =>
    obtain ⟨-, rfl⟩ := mem_replicate.1 hc
    omega
  | oneBit l h | twoBit l h =>
    obtain ⟨x, -, rfl⟩ := mem_map.1 hc
    omega

lemma readMember_sound {member : List UInt8} {anchorUs : ℤ} {r : List Status × ℤ}
    (h : readMember member anchorUs = some r) : WellFormed member := by
  unfold readMember at h
  cases hinit : parserInit member anchorUs with
  | none => simp [hinit] at h
  | some p =>
    simp only [hinit, Option.bind_some, readStatuses] at h
    split_ifs at h with hcap hbad
    have hlen : fixedLen ≤ member.length := by
      by_contra hshort
      rw [parserInit, if_pos (by omega)] at hinit
      simp at hinit
    rw [parserInit, if_neg (by omega)] at hinit
    cases hvalid : validateChunks member (readBe16 member 14) with
    | none => simp [hvalid] at hinit
    | some deltaOffset =>
      simp only [hvalid, Option.some.injEq] at hinit
      by_cases hzero : readBe16 member 14 = 0
      · exact .inr ⟨hlen, hzero⟩
      obtain ⟨front, last, rest, hdrop, hdelta, hle, hshort, hcover⟩ :=
        validateFrom_sound (readBe16_lt member 14) hvalid (Nat.pos_of_ne_zero hzero)
      have hcount : p.packetStatusCount = readBe16 member 14 := by rw [← hinit]
      have hdata : p.data = member := by rw [← hinit]
      have hoff : p.deltaOffset = deltaOffset := by rw [← hinit]
      have hchunks : ((front ++ [last]).flatMap Chunk.bytes).length =
          2 * (front ++ [last]).length := length_chunk_bytes _
      have hfixed : (member.take fixedLen).length = fixedLen := by
        rw [length_take]
        omega
      have hstands : Stands p ((front ++ [last]).flatMap Chunk.symbols) (front ++ [last]) := by
        rw [← hinit]
        refine ⟨prefix_rfl, ⟨member.take fixedLen, rest, ?_, hfixed⟩, ?_⟩
        · rw [← hdrop, take_append_drop]
        · exact hdelta.ge
      have hwhole : (collect p.packetStatusCount p).1.length = p.packetStatusCount := by
        have hsame := collect_count p.packetStatusCount p
        rw [not_or, not_or, not_not, not_not] at hbad
        exact hbad.2.2.trans hsame
      obtain ⟨es, trailing, hes, hpre, hbytes⟩ := collect_sound p.packetStatusCount hstands
        (by omega) (symbols_lt _) hwhole
      refine wellFormed_of_parts ⟨front, last, hpre, by omega⟩ trailing hlen (by omega) ?_
      have hrest : member.drop deltaOffset = rest := by
        rw [hdelta, ← drop_drop, hdrop, ← hchunks, drop_left]
      rw [hdata, hoff, hrest] at hbytes
      rw [hdrop, hbytes]
      rfl

end Sender

end MezonSfu.Congestion
