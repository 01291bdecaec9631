import MezonSfu.PacedSend
import MezonSfu.ProbeController
import MezonSfu.Runs
import MezonSfu.TwccHistory
import MezonSfu.TwccParser

/-!
The sending side of one subscriber as far as transport-wide feedback concerns it: packets are
numbered and recorded as they are sent, the probe controller is stepped between them, and
feedback members are counted against the history (`handle_twcc_member`).

The video runtime exists throughout. What the source leaves to other parts is an outcome: the
fields of `Scan` and `Built`, and whether the head of the probe queue is sent or dropped.

`Log` is history: every packet has a number there, and what it was counted for.
-/

namespace MezonSfu.Congestion

open Twcc

/-- A packet of the log: of a media stream, or a probe of a cluster. -/
inductive Sent
  | media
  | probe (clusterId : ℕ)
  deriving DecidableEq

/-- What a packet was counted for: in `fresh_total` or `fresh_lost`, by the estimator, or in
`packets_received + packets_lost` of a cluster. -/
inductive Count
  | freshTotal
  | freshLost
  | estimator
  | probe (clusterId : ℕ)
  deriving DecidableEq

/-- What one feedback member reported: how many packets it was the first to report, its
`fresh_lost` and `fresh_total`, and whether the loss lowered the rate. -/
structure Feedback where
  fresh : ℕ
  freshLost : ℕ
  freshTotal : ℕ
  backedOff : Bool
  deriving DecidableEq

structure Log where
  /-- The packets that got a number, in order. -/
  sent : List Sent := []
  counted : List (ℕ × Count) := []
  /-- The packets that feedback has reported, received or lost. -/
  reported : List ℕ := []
  /-- The packets of the current cluster. -/
  cluster : List ℕ := []
  feedbacks : List Feedback := []

namespace Log

def count (l : Log) (packet : ℕ) (c : Count) : Log :=
  { l with counted := l.counted ++ [(packet, c)] }

def report (l : Log) (packet : ℕ) : Log := { l with reported := l.reported ++ [packet] }

end Log

/-- An entry of `paced_probe`. -/
structure QueuedProbe where
  len : ℕ
  twccWritten : Bool
  twccSeq : ℕ
  probeClusterId : ℕ
  packet : ℕ

structure Sender (T : Type*) where
  prober : Prober T
  history : History
  twccLastFeedbackRefUs : ℤ
  nextTwccSeq : ℕ
  pacedProbe : List QueuedProbe
  log : Log

namespace Sender

variable {T : Type*} (D : Detector T)

/-- The rates that `session.c` starts the estimator with. -/
def bweStartBps : ℕ := 2500000
def bweMinBps : ℕ := 100000
def bweMaxBps : ℕ := 5000000

def init : Sender T where
  prober := { probe := {}, gcc := Gcc.init D bweStartBps bweMinBps bweMaxBps }
  history := History.init
  twccLastFeedbackRefUs := 0
  nextTwccSeq := 0
  pacedProbe := []
  log := {}

variable (s : Sender T)

/-- Media and retransmissions draw their numbers from the counter that probes draw from, when they
are made. -/
def numberMedia : Sender T :=
  { s with nextTwccSeq := (s.nextTwccSeq + 1) % 2 ^ 16 }

/-- A packet is recorded when it is sent. Others may have been numbered since it drew `seq`, so
`seq` is any number. -/
def sendMedia (seq : ℕ) (sendTimeUs : ℤ) (sizeBytes : ℕ) : Sender T :=
  { s with
    history := s.history.record (seq % 2 ^ 16) sendTimeUs sizeBytes s.log.sent.length
    log := { s.log with sent := s.log.sent ++ [.media] } }

/-- The probe at the head of its queue leaves it, sent or dropped
(`sfu_paced_priority_queue_drain`). -/
def drainProbe (sent : Bool) (sendTimeUs : ℤ) : Sender T :=
  match s.pacedProbe with
  | [] => s
  | e :: q =>
    if sent ∧ e.twccWritten then
      { s with
        pacedProbe := q
        history := s.history.recordProbe e.twccSeq sendTimeUs e.len e.probeClusterId e.packet }
    else { s with pacedProbe := q }

/-- How the making of one probe went: the queue is full already, the padding packet was built
and encrypted, and the queue took it. -/
structure Built where
  full : Bool
  built : Bool
  status : Bool
  encLen : ℕ
  queued : Bool

/-- What a step finds outside the controller. -/
structure Scan where
  rtxAvailable : Bool
  twccNegotiated : Bool
  rtxQueueCount : ℕ
  mediaBacklog : ℕ
  packets : List Built

def Built.succeeds (b : Built) : Bool :=
  b.built && b.status && b.queued && decide (0 < b.encLen) && decide (b.encLen ≤ Paced.maxPayload)

def enqueueProbe (twccSeq encLen : ℕ) (twccWritten : Bool) : Sender T :=
  { s with
    pacedProbe := s.pacedProbe ++ [{
      len := encLen, twccWritten := twccWritten, twccSeq := twccSeq
      probeClusterId := s.prober.probe.clusterId, packet := s.log.sent.length }]
    prober := { s.prober with probe := { s.prober.probe with
      bytesSent := s.prober.probe.bytesSent + encLen
      packetsSent := s.prober.probe.packetsSent + 1 } }
    log := { s.log with
      sent := s.log.sent ++ [.probe s.prober.probe.clusterId]
      cluster := s.log.cluster ++ [s.log.sent.length] } }

/-- The loop that makes the packets of a cluster, a few per step. Each turn asks for one outcome;
where there is none the queue is full. -/
def generate (twccWritten : Bool) : ℕ → List Built → Sender T → Sender T
  | 0, _, s => s
  | _ + 1, [], s => s
  | n + 1, b :: bs, s =>
    if s.prober.probe.bytesTarget ≤ s.prober.probe.bytesSent ∨ b.full then s
    else
      let numbered := { s with nextTwccSeq := (s.nextTwccSeq + 1) % 2 ^ 16 }
      if b.succeeds then
        generate twccWritten n bs (numbered.enqueueProbe s.nextTwccSeq b.encLen twccWritten)
      else numbered

/-- A cluster that has sent its bytes waits for feedback. -/
def endSending (nowUs : ℤ) : Sender T :=
  if s.prober.probe.bytesTarget ≤ s.prober.probe.bytesSent then
    { s with prober := { s.prober with probe := { s.prober.probe with
        state := .waitingFeedback, sendEndTimeUs := nowUs } } }
  else s

def startProbe (nowUs : ℤ) : Sender T :=
  { s with
    prober := s.prober.startProbe nowUs
    log := if (s.prober.startProbe nowUs).probe.clustersStarted = s.prober.probe.clustersStarted
      then s.log else { s.log with cluster := [] } }

def step (scan : Scan) (nowUs : ℤ) : Sender T :=
  match s.prober.probe.state with
  | .idle =>
    if s.prober.shouldProbe D nowUs scan.twccNegotiated scan.rtxAvailable scan.rtxQueueCount
        scan.mediaBacklog then s.startProbe nowUs
    else s
  | .probing =>
    if s.prober.gcc.isOverusing D ∨ scan.rtxAvailable = false ∨ 0 < scan.rtxQueueCount then
      { s with prober := s.prober.abort nowUs }
    else if 0 < s.prober.probe.startTimeUs ∧
        probeClusterTimeoutUs < nowUs - s.prober.probe.startTimeUs then
      { s with prober := s.prober.finishCluster D nowUs }
    else endSending (generate scan.twccNegotiated Paced.maxDrainPerScan scan.packets s) nowUs
  | .waitingFeedback =>
    if 0 < s.prober.probe.sendEndTimeUs ∧
        probeClusterTimeoutUs < nowUs - s.prober.probe.sendEndTimeUs then
      { s with prober := s.prober.finishCluster D nowUs }
    else s

/-! ### Feedback -/

def twccBatchCap : ℕ := 256

/-- The loop that collects the statuses, and the parser behind it. -/
def collect : ℕ → Parser → List Status × Parser
  | 0, p => ([], p)
  | n + 1, p => match nextStatus p with
    | (q, some status) => match collect n q with
      | (batch, r) => (status :: batch, r)
    | (q, none) => ([], q)

/-- The statuses in front of a parser and the time behind them, if it can read all of them. -/
def readStatuses (parser : Parser) : Option (List Status × ℤ) :=
  if twccBatchCap < parser.packetStatusCount then none
  else
    let (batch, parser) := collect parser.packetStatusCount parser
    if parser.failed ∨ parser.packetsProcessed ≠ parser.packetStatusCount ∨
        batch.length ≠ parser.packetStatusCount then none
    else some (batch, parser.currentTimeUs)

def readMember (member : List UInt8) (anchorUs : ℤ) : Option (List Status × ℤ) :=
  (parserInit member anchorUs).bind readStatuses

/-- The loop variables of `handle_twcc_member`, with the number of packets that no member
reported before. -/
structure Tally (T : Type*) where
  sender : Sender T
  freshLost : ℕ
  freshTotal : ℕ
  fresh : ℕ

/-- A report about a probe is noted where the controller counts it. -/
def noteProbe (p : Probe) (l : Log) (e : HistoryEntry) : Log :=
  if p.counts e.probeClusterId then l.count e.packet (.probe p.clusterId) else l

def countLost (t : Tally T) (seq : ℕ) : Tally T :=
  let s := t.sender
  let e := (s.history.lookupExt seq).getD {}
  match s.history.reportLossOnce seq with
  | none => t
  | some history =>
    if e.isProbe then
      { t with
        sender := { s with
          history := history
          prober := { s.prober with probe := s.prober.probe.onPacketLost e.probeClusterId }
          log := noteProbe s.prober.probe (s.log.report e.packet) e }
        fresh := t.fresh + 1 }
    else
      { sender := { s with
          history := history
          log := ((s.log.report e.packet).count e.packet .freshTotal).count e.packet .freshLost }
        freshLost := t.freshLost + 1
        freshTotal := t.freshTotal + 1
        fresh := t.fresh + 1 }

/-- A packet that was reported received. One that was reported lost before is known already,
but its arrival still goes to the estimator. -/
def countReceived (t : Tally T) (status : Status) : Tally T :=
  let s := t.sender
  match s.history.consumeReceivedExt status.sequenceNumber with
  | none => t
  | some (history, e) =>
    let item : PacketInfo := {
      sequenceNumber := status.sequenceNumber, sendTimeUs := e.sendTimeUs
      receiveTimeUs := status.receiveTimeUs, sizeBytes := e.sizeBytes }
    let probe := if e.isProbe ∧ e.lossReported = false then
        s.prober.probe.onPacketReceived e.probeClusterId e.sizeBytes status.receiveTimeUs
      else s.prober.probe
    let log := (s.log.report e.packet).count e.packet .estimator
    { t with
      sender := { s with
        history := history
        prober := { probe := probe, gcc := s.prober.gcc.processTwccPacket D item }
        log := if e.lossReported then log
          else if e.isProbe then noteProbe s.prober.probe log e
          else log.count e.packet .freshTotal }
      freshTotal := if e.isProbe = false ∧ e.lossReported = false then t.freshTotal + 1
        else t.freshTotal
      fresh := if e.lossReported then t.fresh else t.fresh + 1 }

def countStatus (t : Tally T) (status : Status) : Tally T :=
  if status.status = statusNotReceived then countLost t status.sequenceNumber
  else countReceived D t status

def tallyBatch (batch : List Status) : Tally T := batch.foldl (countStatus D) ⟨s, 0, 0, 0⟩

def raiseAnchor (currentTimeUs : ℤ) : Sender T :=
  { s with twccLastFeedbackRefUs := max currentTimeUs s.twccLastFeedbackRefUs }

/-- Fresh loss goes to the estimator; if it lowered the rate, the probe is aborted. -/
def reportLoss (freshLost freshTotal : ℕ) (nowUs : ℤ) : Sender T × Bool :=
  if 0 < freshLost then
    let (gcc, sustainedLoss) := s.prober.gcc.reportLoss freshLost freshTotal
    let prober := { s.prober with gcc := gcc }
    ({ s with prober := if sustainedLoss then prober.abort nowUs else prober }, sustainedLoss)
  else (s, false)

/-- What `handle_twcc_member` does with a batch that could be read. -/
def handleBatch (batch : List Status) (currentTimeUs nowUs : ℤ) : Sender T :=
  let t := tallyBatch D s batch
  let (r, backedOff) :=
    (t.sender.raiseAnchor currentTimeUs).reportLoss t.freshLost t.freshTotal nowUs
  { r with
    prober := r.prober.finishCluster D nowUs
    log := { r.log with
      feedbacks := r.log.feedbacks ++ [⟨t.fresh, t.freshLost, t.freshTotal, backedOff⟩] } }

def handleTwccMember (member : List UInt8) (nowUs : ℤ) : Sender T :=
  match readMember member s.twccLastFeedbackRefUs with
  | none => s
  | some (batch, currentTimeUs) => s.handleBatch D batch currentTimeUs nowUs

inductive Op
  | numberMedia
  | sendMedia (seq : ℕ) (sendTimeUs : ℤ) (sizeBytes : ℕ)
  | drainProbe (sent : Bool) (sendTimeUs : ℤ)
  | setUnmetDemand (hasUnmetDemand : Bool)
  | startProbe (nowUs : ℤ)
  | step (scan : Scan) (nowUs : ℤ)
  | checkClusterDone (nowUs : ℤ)
  | handleTwccMember (member : List UInt8) (nowUs : ℤ)

def apply : Op → Sender T
  | .numberMedia => s.numberMedia
  | .sendMedia seq sendTimeUs sizeBytes => s.sendMedia seq sendTimeUs sizeBytes
  | .drainProbe sent sendTimeUs => s.drainProbe sent sendTimeUs
  | .setUnmetDemand b => { s with prober := { s.prober with probe :=
      { s.prober.probe with hasUnmetDemand := b } } }
  | .startProbe nowUs => s.startProbe nowUs
  | .step scan nowUs => s.step D scan nowUs
  | .checkClusterDone nowUs => { s with prober := (s.prober.checkClusterDone D nowUs).1 }
  | .handleTwccMember member nowUs => s.handleTwccMember D member nowUs

def run (ops : List Op) : Sender T := Runs.run (apply D) (init D) ops

variable {s} {P : Sender T → Prop}

/-- What the loop of a step makes: `k` more packets of the current cluster. -/
structure Generated (s s' : Sender T) (k : ℕ) : Prop where
  probe : s'.prober.probe = { s.prober.probe with
    bytesSent := s'.prober.probe.bytesSent, packetsSent := s.prober.probe.packetsSent + k }
  gcc : s'.prober.gcc = s.prober.gcc
  sent : s'.log.sent = s.log.sent ++ List.replicate k (.probe s.prober.probe.clusterId)
  cluster : s'.log.cluster = s.log.cluster ++ List.range' s.log.sent.length k
  counted : s'.log.counted = s.log.counted
  reported : s'.log.reported = s.log.reported

/-- What is known of feedback stays. -/
structure Generates (s s' : Sender T) (k : ℕ) : Prop extends Generated s s' k where
  feedbacks : s'.log.feedbacks = s.log.feedbacks
  anchor : s'.twccLastFeedbackRefUs = s.twccLastFeedbackRefUs

lemma generate_spec (twccWritten : Bool) (n : ℕ) (bs : List Built) (s : Sender T) :
    ∃ k, Generates s (generate twccWritten n bs s) k := by
  have hnone : ∀ (s : Sender T) (seq : ℕ), Generates s { s with nextTwccSeq := seq } 0 := by
    intro s seq
    constructor <;> constructor <;> simp
  induction n generalizing bs s with
  | zero => exact ⟨0, hnone s s.nextTwccSeq⟩
  | succ n ih =>
    cases bs with
    | nil => exact ⟨0, hnone s s.nextTwccSeq⟩
    | cons b bs =>
      unfold generate
      split_ifs
      · exact ⟨0, hnone s s.nextTwccSeq⟩
      · obtain ⟨k, hk⟩ := ih bs (enqueueProbe
          { s with nextTwccSeq := (s.nextTwccSeq + 1) % 2 ^ 16 } s.nextTwccSeq b.encLen twccWritten)
        refine ⟨k + 1, ⟨?_, hk.gcc, ?_, ?_, hk.counted, hk.reported⟩, hk.feedbacks, hk.anchor⟩
        · rw [hk.probe]
          simp only [enqueueProbe, Nat.add_assoc, Nat.add_comm 1 k]
        · rw [hk.sent]
          simp [enqueueProbe, List.replicate_succ]
        · rw [hk.cluster]
          simp [enqueueProbe, List.range'_succ]
      · exact ⟨0, hnone s _⟩

/-- What holds of the sender in each of the branches of a step holds behind the step. -/
lemma step_rule (scan : Scan) {nowUs : ℤ} (hsame : P s) (hstart : P (s.startProbe nowUs))
    (habort : P { s with prober := s.prober.abort nowUs })
    (hfinish : P { s with prober := s.prober.finishCluster D nowUs })
    (hsend : s.prober.probe.state = .probing → ∀ g k, Generates s g k →
      g = generate scan.twccNegotiated Paced.maxDrainPerScan scan.packets s →
      P (endSending g nowUs)) : P (s.step D scan nowUs) := by
  unfold step
  split
  · split_ifs <;> assumption
  · next hstate =>
    obtain ⟨k, hg⟩ := generate_spec scan.twccNegotiated Paced.maxDrainPerScan scan.packets s
    split_ifs <;> first | assumption | exact hsend hstate _ k hg rfl
  · split_ifs <;> assumption

/-- The probes leave their queue for the ring, and nothing else is touched. -/
lemma drainProbe_eq (s : Sender T) (sent : Bool) (sendTimeUs : ℤ) : ∃ q history,
    s.drainProbe sent sendTimeUs = { s with pacedProbe := q, history := history } := by
  unfold drainProbe
  split
  · exact ⟨_, _, rfl⟩
  · split_ifs <;> exact ⟨_, _, rfl⟩

def calm : Detector Unit where
  init := ()
  updateTrendline := fun _ _ _ _ => ()
  usageState := fun _ => .normal
  additive := fun _ => 0

/-- A member about the one packet `seq`, lost or received. -/
def oneStatus (seq : UInt8) (lost : Bool) : List UInt8 :=
  List.replicate 12 0 ++ [0, seq, 0, 1, 0, 0, 0, 0] ++
    if lost then [0x00, 0x01] else [0x20, 0x01, 0x04]

end Sender

end MezonSfu.Congestion
