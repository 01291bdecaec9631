import MezonSfu.PacedPriority

/-!
The paced send queue of one publisher's camera or screen towards one subscriber: admission of
the packets of a frame, the ring of encrypted packets, the backlog trim and the drain.

A frame is admitted packet by packet. Its packets are in the ring but not ready until the last one
finishes the frame; before that they can be rolled back from the tail. The bytes of a packet are
of an arbitrary type. The reservation of an entry is committed where it is sent, and cancelled
where it is rolled back, trimmed or found stale.
-/

namespace MezonSfu.Paced

def capacity : ℕ := 512
def maxDrainPerScan : ℕ := 4
def scanIntervalUs : ℤ := 2000
def minBps : ℕ := 2000000
def keyframeMinBps : ℕ := 5000000
def cameraMaxDelayUs : ℤ := 200000
def screenMaxDelayUs : ℤ := 750000
def screenMotionMaxDelayUs : ℤ := 250000
def maxDroppedPublishers : ℕ := 8

structure Metadata where
  assignmentGeneration : ℕ
  ownerValue : ℕ
  transportGeneration : ℕ
  addressGeneration : ℕ
  remoteSlot : ℕ
  publisherPeerId : ℕ
  mediaSsrc : UInt32
  frameEnd : Bool
  isKeyframe : Bool
deriving DecidableEq, Inhabited

structure Entry (Pkt : Type*) where
  releaseAtUs : ℤ
  spanUs : ℤ
  dst : ℕ
  len : ℕ
  metadata : Metadata
  data : Pkt
deriving DecidableEq, Inhabited

def Entry.markEnd {Pkt : Type*} (e : Entry Pkt) : Entry Pkt :=
  { e with metadata := { e.metadata with frameEnd := true } }

/-- Which publishers lost frames to a trim. -/
structure DropReport where
  frames : ℕ
  publishers : List ℕ
  truncated : Bool
deriving DecidableEq

def DropReport.init : DropReport := ⟨0, [], false⟩

def DropReport.add (report : DropReport) (publisher : ℕ) : DropReport :=
  if publisher = 0 ∨ publisher ∈ report.publishers then report
  else if maxDroppedPublishers ≤ report.publishers.length then
    { report with truncated := true }
  else { report with publishers := report.publishers ++ [publisher] }

/-- A queue. The ring holds the entries with the head, the tail and the count. -/
structure PacedSend (Pkt : Type*) where
  ring : Ring (Entry Pkt)
  readyCount : ℕ
  nextReleaseUs : ℤ
  inputTimestamp : UInt32
  inputFrameBaseNextReleaseUs : ℤ
  inputFrameQueuedPackets : ℕ
  inputFrameActive : Bool
  dropInputFrame : Bool
  inputFrameIsKeyframe : Bool
  rolledBackPublisherPeerId : ℕ
  rolledBackMediaSsrc : UInt32
  rolledBackPacketCount : UInt16
  readyFrameCount : ℕ
  motionFrameCount : ℕ

variable {Pkt : Type*}

def PacedSend.init [Inhabited Pkt] : PacedSend Pkt :=
  { ring := Ring.empty default, readyCount := 0, nextReleaseUs := 0, inputTimestamp := 0,
    inputFrameBaseNextReleaseUs := 0, inputFrameQueuedPackets := 0, inputFrameActive := false,
    dropInputFrame := false, inputFrameIsKeyframe := false, rolledBackPublisherPeerId := 0,
    rolledBackMediaSsrc := 0, rolledBackPacketCount := 0, readyFrameCount := 0,
    motionFrameCount := 0 }

namespace PacedSend

section

variable (q : PacedSend Pkt)

def toList : List (Entry Pkt) := q.ring.toList capacity

def headEntry : Entry Pkt := q.ring.cells q.ring.head

def lastIndex : ℕ := (q.ring.tail + capacity - 1) % capacity

def projectedDelayUs (nowUs : ℤ) : ℤ :=
  if q.ring.count = 0 then 0
  else
    let serialization := if q.nextReleaseUs > nowUs then q.nextReleaseUs - nowUs else 0
    let scans := (q.readyCount + maxDrainPerScan - 1) / maxDrainPerScan
    let scanDelay := (scans : ℤ) * scanIntervalUs
    if serialization > scanDelay then serialization else scanDelay

/-- An empty ring starts over at its first cell. -/
def rewindEmpty : PacedSend Pkt :=
  if q.ring.count = 0 then
    { q with ring := { q.ring with head := 0, tail := 0 }, readyFrameCount := 0 }
  else q

/-! ### The input frame -/

def rollbackEntry : PacedSend Pkt :=
  let e := q.ring.cells q.lastIndex
  { q with
    ring := q.ring.unpush capacity
    rolledBackPublisherPeerId :=
      if e.metadata.publisherPeerId ≠ 0 then e.metadata.publisherPeerId
      else q.rolledBackPublisherPeerId
    rolledBackMediaSsrc :=
      if e.metadata.mediaSsrc ≠ 0 then e.metadata.mediaSsrc else q.rolledBackMediaSsrc }

def rollbackInputFrame : PacedSend Pkt :=
  if q.inputFrameQueuedPackets = 0 ∨ q.ring.count < q.inputFrameQueuedPackets then q
  else
    let r := rollbackEntry^[q.inputFrameQueuedPackets]
      { q with rolledBackPacketCount := UInt16.ofNat q.inputFrameQueuedPackets }
    let r := { r with
      nextReleaseUs := q.inputFrameBaseNextReleaseUs
      inputFrameQueuedPackets := 0
      inputFrameIsKeyframe := false }
    if r.ring.count = 0 then { r.rewindEmpty with nextReleaseUs := 0 } else r

def rejectInputFrame : PacedSend Pkt :=
  if q.inputFrameActive then { q with dropInputFrame := true } else q

def clearInputFrame : PacedSend Pkt :=
  { q with inputFrameActive := false, dropInputFrame := false, inputFrameIsKeyframe := false }

variable (timestamp : UInt32)

/-- A packet with this timestamp ends the unfinished frame by rolling it back. -/
def rollsBack : Bool := q.inputFrameActive && q.inputTimestamp != timestamp

def beginInputFrame (keyframe dropOnDelay : Bool) (maxDelayUs nowUs : ℤ) : PacedSend Pkt :=
  let q := { q with
    inputTimestamp := timestamp
    inputFrameBaseNextReleaseUs := q.nextReleaseUs
    inputFrameQueuedPackets := 0
    inputFrameActive := true
    inputFrameIsKeyframe := keyframe
    motionFrameCount :=
      if q.readyFrameCount > 3 then q.motionFrameCount + 1 else q.motionFrameCount - 1 }
  let effectiveMaxDelay := if q.motionFrameCount > 0 then screenMotionMaxDelayUs else maxDelayUs
  { q with
    dropInputFrame :=
      dropOnDelay && !keyframe && decide (q.projectedDelayUs nowUs ≥ effectiveMaxDelay) }

/-- The input frame of a packet: the one that is open, or a new one. -/
def enterInputFrame (keyframe dropOnDelay : Bool) (maxDelayUs nowUs : ℤ) : PacedSend Pkt :=
  if !q.inputFrameActive || q.inputTimestamp != timestamp then
    let q := if q.rollsBack timestamp then q.rollbackInputFrame.clearInputFrame else q
    q.beginInputFrame timestamp keyframe dropOnDelay maxDelayUs nowUs
  else q

def admitFramePacket
    (marker keyframe dropOnDelay : Bool) (maxDelayUs nowUs : ℤ) : PacedSend Pkt × Bool :=
  let q := q.enterInputFrame timestamp keyframe dropOnDelay maxDelayUs nowUs
  let q := if keyframe then { q with inputFrameIsKeyframe := true } else q
  let admitted := !q.dropInputFrame
  (if marker && !admitted then q.clearInputFrame else q, admitted)

def span (len pacingBps : ℕ) (keyframe : Bool) : ℤ :=
  let minRate := if keyframe then keyframeMinBps else minBps
  let rate := if pacingBps < minRate then minRate else pacingBps
  (((len * 8 * 1000000 + rate - 1) / rate : ℕ) : ℤ)

/-- `sfu_paced_send_enqueue`; `allocated` is false where the ring could not be allocated. -/
def enqueue (data : Pkt) (len dst pacingBps : ℕ) (metadata : Metadata)
    (allocated : Bool) (nowUs : ℤ) : Option (PacedSend Pkt) :=
  if len = 0 ∨ maxPayload < len ∨ allocated = false ∨ capacity ≤ q.ring.count then none
  else
    let base := if q.nextReleaseUs > nowUs then q.nextReleaseUs else nowUs
    let spanUs := span len pacingBps metadata.isKeyframe
    let e : Entry Pkt :=
      { releaseAtUs := base, spanUs := spanUs, dst := dst, len := len, metadata := metadata,
        data := data }
    some { q with
      ring := q.ring.push capacity e
      nextReleaseUs := base + spanUs
      inputFrameQueuedPackets :=
        if q.inputFrameActive then q.inputFrameQueuedPackets + 1
        else q.inputFrameQueuedPackets }

def finishInputFrame : PacedSend Pkt :=
  if q.inputFrameActive then
    let r :=
      if q.inputFrameQueuedPackets ≠ 0 then
        { q with
          ring := q.ring.modifyLast capacity Entry.markEnd
          readyFrameCount := q.readyFrameCount + 1 }
      else q
    { r with
      readyCount := q.readyCount + q.inputFrameQueuedPackets
      inputFrameQueuedPackets := 0 }.clearInputFrame
  else q

end

/-! ### The backlog trim -/

/-- One entry of the rebased backlog: it is released at `base`, the next one after it. -/
def rebaseEntry (base : ℤ) (e : Entry Pkt) : ℤ × Entry Pkt :=
  (base + e.spanUs, { e with releaseAtUs := base })

variable (q : PacedSend Pkt)

def rebaseBacklog (nowUs : ℤ) : PacedSend Pkt :=
  let walked := q.ring.walk capacity rebaseEntry nowUs
  { q with
    ring := walked.2
    nextReleaseUs := if q.ring.count = 0 then 0 else walked.1
    inputFrameBaseNextReleaseUs :=
      if q.inputFrameActive then nowUs + ((q.toList.take q.readyCount).map Entry.spanUs).sum
      else q.inputFrameBaseNextReleaseUs }

def advance : PacedSend Pkt :=
  { q with ring := q.ring.pop capacity, readyCount := q.readyCount - 1 }

/-- Drop the entries of the frame at the head, up to the one marked as its last. Returns whether
that one was seen, and the publisher of the entry dropped last. -/
def dropHeadFrame : ℕ → PacedSend Pkt → ℕ → PacedSend Pkt × Bool × ℕ
  | 0, q, publisher => (q, false, publisher)
  | n + 1, q, publisher =>
    if q.readyCount = 0 then (q, false, publisher)
    else if q.headEntry.metadata.frameEnd then
      (q.advance, true, q.headEntry.metadata.publisherPeerId)
    else dropHeadFrame n q.advance q.headEntry.metadata.publisherPeerId

def trimFrame (nowUs : ℤ) (report : DropReport) : PacedSend Pkt × DropReport :=
  let dropped := dropHeadFrame q.readyCount q 0
  let r :=
    if dropped.2.1 then
      { dropped.1 with readyFrameCount := dropped.1.readyFrameCount - 1 }
    else dropped.1
  (r.rebaseBacklog nowUs, { report with frames := report.frames + 1 }.add dropped.2.2)

/-- The trim goes on: something is ready, the delay is over the bound and the packet at the head
is not one of a keyframe. -/
def trims (maxDelayUs nowUs : ℤ) : Bool :=
  decide (q.readyCount ≠ 0) && decide (q.projectedDelayUs nowUs ≥ maxDelayUs) &&
    !q.headEntry.metadata.isKeyframe

/-- The trim loop, for at most `n` frames. -/
def trimFrames (maxDelayUs nowUs : ℤ) :
    ℕ → PacedSend Pkt → DropReport → PacedSend Pkt × DropReport
  | 0, q, report => (q, report)
  | n + 1, q, report =>
    if q.trims maxDelayUs nowUs then
      trimFrames maxDelayUs nowUs n (q.trimFrame nowUs report).1 (q.trimFrame nowUs report).2
    else (q, report)

/-- `sfu_paced_send_bound_backlog`. Every pass of its loop drops an entry, so there are at most
as many passes as ready entries. -/
def boundBacklog (maxDelayUs nowUs : ℤ) (report : DropReport) : PacedSend Pkt × DropReport × Bool :=
  if maxDelayUs ≤ 0 ∨ q.inputFrameActive = true then (q, report, false)
  else
    let trimmed := trimFrames maxDelayUs nowUs q.readyCount q report
    let r := trimmed.1.rewindEmpty
    (r, trimmed.2, decide (r.projectedDelayUs nowUs < maxDelayUs))

inductive Fate (Pkt : Type*)
  | sent (e : Entry Pkt)
  | stale (e : Entry Pkt)

/-- `pop_entry` and the queue's part of `cancel_and_pop_entry`. -/
def popEntry : PacedSend Pkt :=
  { q.advance with
    readyFrameCount :=
      if q.headEntry.metadata.frameEnd then q.readyFrameCount - 1 else q.readyFrameCount }

/-- The drain loop. `valid` is `entry_valid` of the session; `accepts n` is whether, with `n`
packets left to process, the packet is taken by the network. -/
def drainLoop (valid : Entry Pkt → Bool) (accepts : ℕ → Bool) (nowUs : ℤ) :
    ℕ → PacedSend Pkt → PacedSend Pkt × List (Fate Pkt)
  | 0, q => (q, [])
  | n + 1, q =>
    if q.readyCount = 0 then (q, [])
    else if !valid q.headEntry then
      let rest := drainLoop valid accepts nowUs n q.popEntry
      (rest.1, .stale q.headEntry :: rest.2)
    else if q.headEntry.releaseAtUs > nowUs || !accepts n then (q, [])
    else
      let rest := drainLoop valid accepts nowUs n q.popEntry
      (rest.1, .sent q.headEntry :: rest.2)

def drain (valid : Entry Pkt → Bool) (accepts : ℕ → Bool) (nowUs : ℤ)
    (remaining : ℕ) : PacedSend Pkt × List (Fate Pkt) :=
  if remaining = 0 ∨ q.ring.count = 0 then (q, [])
  else
    let drained := drainLoop valid accepts nowUs remaining q
    (if drained.1.ring.count = 0 then { drained.1.rewindEmpty with nextReleaseUs := 0 }
      else drained.1, drained.2)

end PacedSend

end MezonSfu.Paced
