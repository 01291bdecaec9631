import MezonSfu.LayerScheduler
import MezonSfu.PacedSend
import MezonSfu.RemoteSlots
import MezonSfu.SeqTranslator

/-!
The egress path of one subscriber: a packet gets its sequence number, is protected, and is
queued for pacing or sent.

The outcomes of the steps that can fail (the MID extension, protection, the pacer's reservation,
the network) are inputs. Two histories are kept: `kept`, for each SSRC the packets whose numbers
were drawn and not given back, the newest first, and `log`, what happened to those that left a
queue. The program does not read the tag of a packet.
-/

namespace MezonSfu.Pipeline

open Paced Svc Rtp Function
open RemoteSlots (maxRemoteSlots)

variable {Tag : Type*}

/-- A packet as it leaves: protection changes neither its SSRC nor its sequence number. -/
structure Wire (Tag : Type*) where
  ssrc : UInt32
  seq : UInt16
  tag : Tag
deriving DecidableEq, Inhabited

structure Packet (Tag : Type*) where
  len : ℕ
  timestamp : UInt32
  marker : Bool
  seq : UInt16
  ssrc : UInt32
  tag : Tag

/-- `sfu_egress_media_t`; the publisher is its peer id, zero for none. -/
structure Media where
  publisher : ℕ
  svc : Descriptor
  source : MediaKind
  videoSsrc : UInt32
  assignmentGeneration : ℕ
  remoteSlot : ℕ
  hasVideo : Bool
  isAudio : Bool
  hasSvc : Bool
  isKeyframe : Bool

/-- What the egress path reads of the subscriber's session. -/
structure Session where
  acceptsWork : Bool
  ownerValue : ℕ
  transportGeneration : ℕ
  addressGeneration : ℕ
  addr : ℕ
  authorized : ℕ → ℕ → Bool
  videoReady : Bool

/-- The outcomes of the steps that can fail, and what they return. -/
structure Outcome where
  midWritten : Bool
  isProtected : Bool
  encLen : ℕ
  reserved : Bool
  pacingBps : ℕ
  allocated : Bool
  sent : Bool

/-- What happened to a packet: the network took it, or it was discarded. -/
inductive Event (Tag : Type*)
  | handed (w : Wire Tag)
  | discarded (w : Wire Tag)

/-- The packet of an event, if the network took it. -/
def Event.wire? : Event Tag → Option (Wire Tag)
  | .handed w => some w
  | .discarded _ => none

def Event.ofFate : PacedSend.Fate (Wire Tag) → Event Tag
  | .sent x => .handed x.data
  | .stale x => .discarded x.data

def Event.ofPriorityFate : PriorityFate (Wire Tag) → Event Tag
  | .sent x => .handed x.data
  | .stale x => .discarded x.data
  | .expired x => .discarded x.data

/-- The queues a packet can be paced in: the camera or the screen of a remote slot. -/
inductive QueueId
  | camera (slot : Fin maxRemoteSlots)
  | screen (slot : Fin maxRemoteSlots)
deriving DecidableEq, Fintype

structure Egress (Tag : Type*) where
  translator : Translator
  queues : QueueId → PacedSend (Wire Tag)
  pacedRtx : PriorityQueue (Wire Tag)
  schedulers : List SchedulerSlot
  session : Session
  kept : UInt32 → List (Wire Tag)
  log : List (Event Tag)

def Egress.init [Inhabited Tag] (session : Session) : Egress Tag :=
  { translator := .init
    queues := fun _ => .init
    pacedRtx := .init rtxMaxResidenceUs rtxMaxBytes
    schedulers := List.replicate layerSchedulerCap ⟨0, .audio, .zero⟩
    session := session
    kept := fun _ => []
    log := [] }

namespace Egress

section

variable (e : Egress Tag)

/-- The packets handed to the network, in order. -/
def wire : List (Wire Tag) := e.log.filterMap Event.wire?

def setQueue (k : QueueId) (q : PacedSend (Wire Tag)) : Egress Tag :=
  { e with queues := update e.queues k q }

def record (events : List (Event Tag)) : Egress Tag := { e with log := e.log ++ events }

/-- The entries a queue operation took out of the front and the back of the queue are
discarded. -/
def discard (entries : List (Entry (Wire Tag))) : Egress Tag :=
  e.record (entries.map fun x => .discarded x.data)

def draw (ssrc : UInt32) (sourceSeq : UInt16) (tag : Tag) : Option (Egress Tag × Wire Tag) :=
  (translate e.translator ssrc sourceSeq).map fun r =>
    let w : Wire Tag := ⟨ssrc, r.2, tag⟩
    ({ e with
        translator := r.1
        kept := update e.kept ssrc (w :: e.kept ssrc) }, w)

/-- Give the last `count` numbers of an SSRC back. -/
def giveBack (ssrc : UInt32) (count : UInt16) : Egress Tag :=
  { e with
    translator := (rollback e.translator ssrc count).1
    kept := update e.kept ssrc ((e.kept ssrc).drop count.toNat) }

variable (source : MediaKind)

/-- `sfu_egress_invalidate_publisher_scheduler`; publisher zero stands for every one. -/
def invalidatePublisherScheduler (publisher : ℕ) : Egress Tag :=
  if !e.session.videoReady then e
  else
    { e with
      schedulers := e.schedulers.map fun slot =>
        if slot.publisher ≠ 0 ∧ slot.source = source ∧
            (publisher = 0 ∨ slot.publisher = publisher) then
          { slot with sched := slot.sched.resetForKeyframe }
        else slot }

def invalidateKnown (publisher : ℕ) : Egress Tag :=
  if publisher ≠ 0 then e.invalidatePublisherScheduler source publisher else e

end

def pacedQueue (m : Media) : Option QueueId :=
  if h : m.hasVideo = true ∧ m.isAudio = false ∧ m.remoteSlot < maxRemoteSlots then
    match m.source with
    | .screen => some (.screen ⟨m.remoteSlot, h.2.2⟩)
    | .video => some (.camera ⟨m.remoteSlot, h.2.2⟩)
    | _ => none
  else none

def clearNotes (q : PacedSend (Wire Tag)) : PacedSend (Wire Tag) :=
  { q with rolledBackPublisherPeerId := 0, rolledBackMediaSsrc := 0, rolledBackPacketCount := 0 }

variable (e : Egress Tag)

/-- Read the notes on a rollback and give the numbers of the packets back. -/
def giveBackRolledBack (k : QueueId) : Egress Tag :=
  let q := e.queues k
  let r := e.setQueue k (clearNotes q)
  if q.rolledBackMediaSsrc ≠ 0 ∧ q.rolledBackPacketCount ≠ 0 then
    r.giveBack q.rolledBackMediaSsrc q.rolledBackPacketCount
  else r

def rolledBackPublisher (q : PacedSend (Wire Tag)) (m : Media) : ℕ :=
  if q.rolledBackPublisherPeerId = 0 then m.publisher else q.rolledBackPublisherPeerId

def invalidateRolledBackFrame (m : Media) (k : QueueId) : Egress Tag :=
  let q := e.queues k
  if q.rolledBackPublisherPeerId = 0 ∧ q.rolledBackPacketCount = 0 then e
  else (e.giveBackRolledBack k).invalidateKnown m.source (rolledBackPublisher q m)

def unfinished (q : PacedSend (Wire Tag)) : List (Entry (Wire Tag)) :=
  q.toList.drop (q.ring.count - q.inputFrameQueuedPackets)

section

variable (e : Egress Tag)

/-- What every failure does with the frame of a packet: roll it back and refuse the rest. -/
def rollbackFrame (m : Media) (k : QueueId) : Egress Tag :=
  let q := e.queues k
  ((e.setQueue k q.rollbackInputFrame.rejectInputFrame).discard
    (unfinished q)).invalidateRolledBackFrame m k

/-- The failure of a packet that has its number. -/
def abandon (m : Media) (w : Wire Tag) : Egress Tag :=
  let e := e.giveBack w.ssrc 1
  match pacedQueue m with
  | some k => e.rollbackFrame m k
  | none => e

def boundBacklog (k : QueueId) (nowUs : ℤ) (report : DropReport) : Egress Tag × DropReport × Bool :=
  let q := e.queues k
  let r := q.boundBacklog screenMaxDelayUs nowUs report
  ((e.setQueue k r.1).discard (q.toList.take (q.ring.count - r.1.ring.count)), r.2)

def admitPacket (p : Packet Tag) (m : Media) (marker : Bool) (k : QueueId)
    (nowUs : ℤ) : Egress Tag × Bool :=
  let q := e.queues k
  let camera := decide (m.source = .video)
  let r := q.admitFramePacket p.timestamp marker m.isKeyframe camera
    (if camera then cameraMaxDelayUs else screenMaxDelayUs) nowUs
  let e := (e.setQueue k r.1).discard (if q.rollsBack p.timestamp then unfinished q else [])
  (e.invalidateRolledBackFrame m k, r.2)

def metadata (m : Media) (k : QueueId) : Metadata :=
  { assignmentGeneration := m.assignmentGeneration
    ownerValue := e.session.ownerValue
    transportGeneration := e.session.transportGeneration
    addressGeneration := e.session.addressGeneration
    remoteSlot := m.remoteSlot
    publisherPeerId := m.publisher
    mediaSsrc := m.videoSsrc
    frameEnd := false
    isKeyframe := m.isKeyframe || (e.queues k).inputFrameIsKeyframe }

/-- The frame of a packet ends with it: it is ready, and the backlog of a screen is trimmed. -/
def finishFrame (m : Media) (k : QueueId) (nowUs : ℤ) (report : DropReport) :
    Egress Tag × DropReport :=
  let e := e.setQueue k (e.queues k).finishInputFrame
  if m.source = .screen then
    let r := e.boundBacklog k nowUs report
    (r.1, r.2.1)
  else (e, report)

/-- A numbered and protected packet is queued or sent. -/
def emit (m : Media) (marker : Bool) (w : Wire Tag) (o : Outcome) (nowUs : ℤ)
    (report : DropReport) : Egress Tag × DropReport × Bool :=
  match pacedQueue m with
  | some k =>
    match (e.queues k).enqueue w o.encLen e.session.addr o.pacingBps (e.metadata m k)
        o.allocated nowUs with
    | none => (e.abandon m w, report, false)
    | some q =>
      let e := e.setQueue k q
      if marker then
        let r := e.finishFrame m k nowUs report
        (r.1, r.2, true)
      else (e, report, true)
  | none =>
    if o.sent then (e.record [.handed w], report, true)
    else (e.giveBack w.ssrc 1, report, false)

/-- The part of `sfu_egress_process_local` behind admission: the number is drawn under the crypto
lock, and every later failure gives it back. -/
def numberAndEmit (p : Packet Tag) (m : Media) (marker : Bool) (o : Outcome)
    (nowUs : ℤ) (report : DropReport) : Egress Tag × DropReport × Bool :=
  match e.draw p.ssrc p.seq p.tag with
  | none => (e, report, false)
  | some (e, w) =>
    if o.midWritten && o.isProtected && o.reserved then e.emit m marker w o nowUs report
    else (e.abandon m w, report, false)

/-- Admission to the paced queue. A packet that is not admitted leaves its publisher's scheduler
in need of a keyframe. -/
def admitAndEmit (p : Packet Tag) (m : Media) (marker : Bool) (o : Outcome)
    (nowUs : ℤ) (report : DropReport) : Egress Tag × DropReport × Bool :=
  match pacedQueue m with
  | none => e.numberAndEmit p m marker o nowUs report
  | some k =>
    let r := e.admitPacket p m marker k nowUs
    if r.2 then r.1.numberAndEmit p m marker o nowUs report
    else (r.1.invalidateKnown m.source m.publisher, report, false)

/-- `sfu_egress_process_local`; `decision` is the marker the layer scheduler has set, if there is
one. A packet of twelve bytes or more can be given a number and a marker. -/
def processLocal (p : Packet Tag) (m : Media) (decision : Option Bool)
    (o : Outcome) (nowUs : ℤ) (report : DropReport) : Egress Tag × DropReport × Bool :=
  if !e.session.authorized m.remoteSlot m.assignmentGeneration || decide (p.len < 12) then
    (e, report, false)
  else
    let marker := decision.getD p.marker
    match pacedQueue m with
    | some (.screen slot) =>
      if (e.queues (.screen slot)).inputFrameActive then
        e.admitAndEmit p m marker o nowUs report
      else
        let r := e.boundBacklog (.screen slot) nowUs report
        if !r.2.2 && !m.isKeyframe then
          (r.1.invalidateKnown m.source m.publisher, r.2.1, false)
        else r.1.admitAndEmit p m marker o nowUs r.2.1
    | _ => e.admitAndEmit p m marker o nowUs report

/-- The queue's part of `sfu_egress_handle_scheduler_rejection`. -/
def rejectFrame (m : Media) : Egress Tag :=
  match pacedQueue m with
  | some k => e.rollbackFrame m k
  | none => e

end

def entryValid (s : Session) (x : Entry (Wire Tag)) : Bool :=
  s.acceptsWork && s.ownerValue == x.metadata.ownerValue &&
    s.authorized x.metadata.remoteSlot x.metadata.assignmentGeneration &&
    s.transportGeneration == x.metadata.transportGeneration &&
    s.addressGeneration == x.metadata.addressGeneration && s.addr == x.dst

def priorityEntryValid (s : Session) (x : PriorityEntry (Wire Tag)) : Bool :=
  s.acceptsWork && s.ownerValue == x.ownerValue &&
    s.transportGeneration == x.transportGeneration &&
    s.addressGeneration == x.addressGeneration && s.addr == x.dst

def drain (k : QueueId) (accepts : ℕ → Bool) (nowUs : ℤ) (remaining : ℕ) : Egress Tag :=
  let r := (e.queues k).drain (entryValid e.session) accepts nowUs remaining
  (e.setQueue k r.1).record (r.2.map Event.ofFate)

def drainRtx (accepts : ℕ → Bool) (nowUs : ℤ) (remaining : ℕ) : Egress Tag :=
  let r := e.pacedRtx.drain (priorityEntryValid e.session) accepts nowUs remaining
  ({ e with pacedRtx := r.1 }).record (r.2.map Event.ofPriorityFate)

/-- The outcomes of a retransmission: whether it was built and protected, its length, and the
bytes charged for it. -/
structure RtxOutcome where
  built : Bool
  isProtected : Bool
  encLen : ℕ
  chargedBytes : ℕ
  allocated : Bool

/-- One retransmission of `handle_nack_member`, from the cached packet and the budget on. -/
def retransmit (rtxSsrc : UInt32) (sourceSeq : UInt16) (tag : Tag)
    (o : RtxOutcome) (nowUs : ℤ) : Egress Tag :=
  match e.draw rtxSsrc sourceSeq tag with
  | none => e
  | some (e, w) =>
    if o.built && o.isProtected then
      let x : PriorityEntry (Wire Tag) :=
        { data := w
          len := o.encLen
          dst := e.session.addr
          enqueuedAtUs := nowUs
          ownerValue := e.session.ownerValue
          transportGeneration := e.session.transportGeneration
          addressGeneration := e.session.addressGeneration
          pacerChargedBytes := o.chargedBytes }
      match e.pacedRtx.enqueue x o.allocated with
      | none => e
      | some q => { e with pacedRtx := q }
    else e

variable {e e' : Egress Tag} {k k' : QueueId}

@[simp] lemma queues_setQueue_self (e : Egress Tag) (k : QueueId) (q : PacedSend (Wire Tag)) :
    (e.setQueue k q).queues k = q := update_self ..

lemma queues_setQueue_of_ne (h : k' ≠ k) (q : PacedSend (Wire Tag)) :
    (e.setQueue k q).queues k' = e.queues k' := update_of_ne h ..

lemma wire_record (e : Egress Tag) (events : List (Event Tag)) :
    (e.record events).wire = e.wire ++ events.filterMap Event.wire? := by
  unfold wire record
  rw [List.filterMap_append]

lemma filterMap_discarded (l : List (Entry (Wire Tag))) :
    (l.map fun x => Event.discarded x.data).filterMap Event.wire? = [] := by
  induction l with
  | nil => rfl
  | cons x l ih => exact ih

@[simp] lemma wire_discard (e : Egress Tag) (l : List (Entry (Wire Tag))) :
    (e.discard l).wire = e.wire := by
  unfold discard
  rw [wire_record, filterMap_discarded, List.append_nil]

lemma draw_cases {x : UInt32} {sourceSeq : UInt16} {tag : Tag} {w : Wire Tag}
    (h : e.draw x sourceSeq tag = some (e', w)) :
    ∃ t seq, translate e.translator x sourceSeq = some (t, seq) ∧ w = ⟨x, seq, tag⟩ ∧
      e' = { e with
        translator := t
        kept := update e.kept x (w :: e.kept x) } := by
  obtain ⟨r, hr, heq⟩ := Option.map_eq_some_iff.1 h
  obtain ⟨rfl, rfl⟩ := Prod.mk.inj heq
  exact ⟨r.1, r.2, hr, rfl, rfl⟩

end Egress

end MezonSfu.Pipeline
