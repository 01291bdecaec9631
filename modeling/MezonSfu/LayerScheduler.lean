import Mathlib.Data.Finset.Basic
import MezonSfu.Pacer

/-!
The layer scheduler of one publisher's stream towards one subscriber: which packets of a layered
video are forwarded.

`preparePacket` decides on a packet; the caller commits the decision when the packet was taken
by the egress path and rejects it otherwise. The bit masks of spatial layers are sets of layers.
-/

namespace MezonSfu.Svc

open Paced (PacerClass)

inductive MediaKind
  | audio | video | screen | data
deriving DecidableEq, Repr

inductive RejectReason
  | none | invalidSid | overTargetOrFailed | missingFrameStart | keyframeRequired
  | keyframeMismatch | spatialTarget | spatialTransition | spatialStart | spatialDependency
  | temporalTransition | temporalSwitch | pacerOverlap | pacerOrphan | sequenceGap
deriving DecidableEq, Repr

structure Descriptor where
  rtpTimestamp : UInt32
  seq : UInt16
  sid : ℕ
  tid : ℕ
  pBit : Bool
  uBit : Bool
  dBit : Bool
  bBit : Bool
  eBit : Bool
  lBit : Bool
deriving DecidableEq

def Descriptor.isKeyframe (d : Descriptor) : Bool := d.bBit && !d.pBit && d.sid == 0

structure LayerScheduler where
  lastTargetChangeUs : ℤ
  allocatedBps : ℕ
  pictureTimestamp : UInt32
  transitionTimestamp : UInt32
  temporalTransitionTimestamp : UInt32
  keyframeTimestamp : UInt32
  pacerFrameTimestamp : UInt32
  targetSid : ℕ
  targetTid : ℕ
  currentSid : ℕ
  currentTid : ℕ
  startedSids : Finset ℕ
  completedSids : Finset ℕ
  failedSids : Finset ℕ
  transitionSid : ℕ
  temporalTransitionTid : ℕ
  pacerFrameSid : ℕ
  pacerFrameTid : ℕ
  expectedSeq : UInt16
  source : MediaKind
  needsKeyframe : Bool
  pictureValid : Bool
  transitionActive : Bool
  transitionFailed : Bool
  temporalTransitionActive : Bool
  temporalTransitionFailed : Bool
  keyframeActive : Bool
  keyframeFailed : Bool
  pacerFrameActive : Bool
  seqInitialized : Bool
  frameCorrupted : Bool
deriving DecidableEq

structure Decision where
  rtpTimestamp : UInt32
  seq : UInt16
  sid : ℕ
  tid : ℕ
  bBit : Bool
  eBit : Bool
  rejectReason : RejectReason
  shouldForward : Bool
  setMarker : Bool
  startKeyframe : Bool
  keyframePacket : Bool
  startTransition : Bool
  transitionPacket : Bool
  startTemporalTransition : Bool
  temporalTransitionPacket : Bool
  pacerFrameStart : Bool
  pacerFrameContinuation : Bool
  pacerFrameEnd : Bool
  pacerClass : PacerClass
deriving DecidableEq

namespace LayerScheduler

def zero : LayerScheduler :=
  { lastTargetChangeUs := 0, allocatedBps := 0, pictureTimestamp := 0,
    transitionTimestamp := 0, temporalTransitionTimestamp := 0, keyframeTimestamp := 0,
    pacerFrameTimestamp := 0, targetSid := 0, targetTid := 0,
    currentSid := 0, currentTid := 0, startedSids := ∅, completedSids := ∅, failedSids := ∅,
    transitionSid := 0, temporalTransitionTid := 0, pacerFrameSid := 0, pacerFrameTid := 0,
    expectedSeq := 0, source := .audio, needsKeyframe := false, pictureValid := false,
    transitionActive := false, transitionFailed := false, temporalTransitionActive := false,
    temporalTransitionFailed := false, keyframeActive := false, keyframeFailed := false,
    pacerFrameActive := false, seqInitialized := false, frameCorrupted := false }

def init : LayerScheduler := { zero with needsKeyframe := true, targetTid := 2 }

variable (s : LayerScheduler)

/-- What `sfu_layer_scheduler_for_stream` sets each time it returns a scheduler. -/
def forStream (source : MediaKind) : LayerScheduler :=
  if source = .screen then { s with source := source, targetTid := 2, currentTid := 2 }
  else { s with source := source }

/-- `sfu_egress_reset_scheduler_for_keyframe`. -/
def resetForKeyframe : LayerScheduler :=
  { s with
    needsKeyframe := true
    keyframeActive := false
    keyframeFailed := false
    transitionActive := false
    transitionFailed := false
    temporalTransitionActive := false
    temporalTransitionFailed := false
    pacerFrameActive := false
    expectedSeq := 0
    seqInitialized := false
    frameCorrupted := false }

def beginPicture (timestamp : UInt32) : LayerScheduler :=
  if s.pictureValid && s.pictureTimestamp == timestamp then s
  else
    let unfinished := s.pictureValid && decide (s.startedSids ≠ ∅) &&
      (decide (¬ s.startedSids ⊆ s.completedSids) || decide (s.startedSids ∩ s.failedSids ≠ ∅))
    { s with
      needsKeyframe := s.needsKeyframe || unfinished || s.keyframeActive
      keyframeFailed := s.keyframeFailed || s.keyframeActive
      keyframeActive := false
      transitionActive := false
      transitionFailed := false
      temporalTransitionActive := false
      temporalTransitionFailed := false
      pacerFrameActive := false
      pictureValid := true
      pictureTimestamp := timestamp
      startedSids := ∅
      completedSids := ∅
      failedSids := ∅
      transitionSid := 0
      transitionTimestamp := 0
      temporalTransitionTid := 0
      temporalTransitionTimestamp := 0
      frameCorrupted := false }

/-- The sequence numbers within a picture, and before an inter picture, have no gap. Returns
false for a packet behind a gap. -/
def checkSequence (desc : Descriptor) (isKeyframe : Bool) : LayerScheduler × Bool :=
  let gap := { s with
    frameCorrupted := true, needsKeyframe := true, expectedSeq := desc.seq + 1 }
  if !desc.bBit then
    if !s.seqInitialized || desc.seq != s.expectedSeq || s.frameCorrupted then (gap, false)
    else ({ s with expectedSeq := desc.seq + 1 }, true)
  else if !isKeyframe then
    if s.seqInitialized && desc.seq != s.expectedSeq then (gap, false)
    else ({ s with frameCorrupted := false, expectedSeq := desc.seq + 1 }, true)
  else
    ({ s with seqInitialized := true, frameCorrupted := false, expectedSeq := desc.seq + 1 }, true)

/-- The layers the scheduler is at, before a packet is looked at. -/
def clampLayers : LayerScheduler :=
  if s.source = .screen then { s with targetTid := 2, currentTid := 2 }
  else
    { s with
      currentSid := if s.targetSid < s.currentSid then s.targetSid else s.currentSid
      currentTid := if s.targetTid < s.currentTid then s.targetTid else s.currentTid }

end LayerScheduler

def classifyFrame (desc : Descriptor) : PacerClass :=
  if 0 < desc.sid ∨ 0 < desc.tid then .videoEnh else .videoBase

def Decision.start (desc : Descriptor) : Decision :=
  { rtpTimestamp := desc.rtpTimestamp, seq := desc.seq, sid := desc.sid, tid := desc.tid,
    bBit := desc.bBit, eBit := desc.eBit, rejectReason := .none, shouldForward := false,
    setMarker := false, startKeyframe := false, keyframePacket := false,
    startTransition := false, transitionPacket := false, startTemporalTransition := false,
    temporalTransitionPacket := false, pacerFrameStart := false,
    pacerFrameContinuation := classifyFrame desc == .videoEnh && !desc.bBit,
    pacerFrameEnd := false, pacerClass := classifyFrame desc }

def Decision.reject (d : Decision) (reason : RejectReason) : Decision :=
  { d with rejectReason := reason }

namespace LayerScheduler

section

variable (s : LayerScheduler)

variable (desc : Descriptor)

/-- The packet's layer is within the target, and its frame was started. -/
def checkLayer (d : Decision) : Except Decision Decision :=
  if desc.sid ∈ s.failedSids ∨ s.targetSid < desc.sid ∨
      (s.source ≠ .screen ∧ s.targetTid < desc.tid) then
    .error (d.reject .overTargetOrFailed)
  else if desc.bBit = false ∧ desc.sid ∉ s.startedSids then
    .error (d.reject .missingFrameStart)
  else .ok d

/-- While a keyframe is needed only the packets of one are let through. -/
def checkKeyframe (isKeyframe : Bool) (d : Decision) : Except Decision Decision :=
  if s.needsKeyframe then
    if !s.keyframeActive then
      if !isKeyframe || !desc.bBit || desc.sid != 0 then .error (d.reject .keyframeRequired)
      else .ok { d with startKeyframe := true, keyframePacket := true, transitionPacket := true }
    else if s.keyframeFailed || s.keyframeTimestamp != desc.rtpTimestamp || desc.sid != 0 ||
        desc.pBit then
      .error (d.reject .keyframeMismatch)
    else .ok { d with keyframePacket := true, transitionPacket := true }
  else if isKeyframe || s.keyframeActive then
    if !s.keyframeActive then
      if desc.bBit && desc.sid == 0 then
        .ok { d with startKeyframe := true, keyframePacket := true, transitionPacket := true }
      else .ok d
    else if s.keyframeTimestamp == desc.rtpTimestamp && desc.sid == 0 && !desc.pBit then
      .ok { d with keyframePacket := true, transitionPacket := true }
    else .ok d
  else .ok d

section

variable (d : Decision)

/-- A packet above the current spatial layer starts or continues a spatial transition. -/
def checkSpatial : Except Decision Decision :=
  if s.currentSid < desc.sid then
    if desc.sid ≠ s.currentSid + 1 ∨ s.targetSid < s.currentSid + 1 then
      .error (d.reject .spatialTarget)
    else if s.transitionActive then
      if s.transitionTimestamp ≠ desc.rtpTimestamp ∨ s.transitionSid ≠ desc.sid ∨
          s.transitionFailed = true then
        .error (d.reject .spatialTransition)
      else .ok { d with transitionPacket := true }
    else if !desc.bBit || desc.pBit then .error (d.reject .spatialStart)
    else if desc.dBit = true ∧
        (s.currentSid ∉ s.completedSids ∨ s.currentSid ∈ s.failedSids) then
      .error (d.reject .spatialDependency)
    else .ok { d with startTransition := true, transitionPacket := true }
  else .ok d

/-- A packet above the current temporal layer starts or continues a temporal switch. -/
def checkTemporal : Except Decision Decision :=
  if s.source ≠ .screen ∧ s.currentTid < desc.tid then
    if s.temporalTransitionActive then
      if s.temporalTransitionTimestamp ≠ desc.rtpTimestamp ∨
          s.temporalTransitionTid ≠ desc.tid ∨ s.temporalTransitionFailed = true then
        .error (d.reject .temporalTransition)
      else .ok { d with temporalTransitionPacket := true, transitionPacket := true }
    else if !desc.bBit || !desc.uBit then .error (d.reject .temporalSwitch)
    else
      .ok { d with
        startTemporalTransition := true
        temporalTransitionPacket := true
        transitionPacket := true }
  else .ok d

/-- The packet belongs to the enhancement frame the pacer has admitted. -/
def inPacerFrame : Bool :=
  s.pacerFrameActive && s.pacerFrameTimestamp == desc.rtpTimestamp &&
    s.pacerFrameSid == desc.sid && s.pacerFrameTid == desc.tid

def classify : Decision :=
  let transition := d.transitionPacket || (!desc.bBit && decide (desc.sid ∈ s.startedSids)) ||
    (decide (s.currentSid < s.targetSid) && !desc.pBit)
  let d := { d with transitionPacket := transition }
  if transition && !(!desc.bBit && s.inPacerFrame desc) then
    { d with pacerClass := .videoTransition, pacerFrameContinuation := false }
  else d

/-- Enhancement frames go to the pacer whole. -/
def checkPacer : Except Decision Decision :=
  if d.pacerClass = .videoEnh then
    let d := { d with pacerFrameStart := desc.bBit, pacerFrameEnd := desc.eBit }
    if desc.bBit then
      if s.pacerFrameActive then .error (d.reject .pacerOverlap) else .ok d
    else
      let d := { d with pacerFrameContinuation := true }
      if !s.inPacerFrame desc then .error (d.reject .pacerOrphan) else .ok d
  else .ok d

def marker : Bool :=
  if !desc.lBit then desc.eBit
  else
    let outputSid :=
      if s.transitionActive && !s.transitionFailed &&
          s.transitionTimestamp == desc.rtpTimestamp then s.transitionSid
      else if d.startTransition then desc.sid
      else if s.currentSid < s.targetSid ∧ desc.pBit = false then s.targetSid
      else s.currentSid
    desc.eBit && desc.sid == outputSid

end

/-- The checks of a packet whose sequence number is in order. -/
def checkPacket (isKeyframe : Bool) :
    Except Decision Decision := do
  let d ← s.checkLayer desc (Decision.start desc)
  let d ← s.checkKeyframe desc isKeyframe d
  let d ← s.checkSpatial desc d
  let d ← s.checkTemporal desc d
  let d ← s.checkPacer desc (s.classify desc d)
  return { d with setMarker := s.marker desc d, shouldForward := true }

def preparePacket (isKeyframe : Bool) : LayerScheduler × Except Decision Decision :=
  if 8 ≤ desc.sid then (s, .error ((Decision.start desc).reject .invalidSid))
  else
    let checked := (s.beginPicture desc.rtpTimestamp).checkSequence desc isKeyframe
    if !checked.2 then (checked.1, .error ((Decision.start desc).reject .sequenceGap))
    else (checked.1.clampLayers, checked.1.clampLayers.checkPacket desc isKeyframe)

variable (d : Decision)

/-- The frame the decision is about is the one the pacer has admitted. -/
def decidesPacerFrame : Bool :=
  s.pacerFrameActive && s.pacerFrameTimestamp == d.rtpTimestamp && s.pacerFrameSid == d.sid &&
    s.pacerFrameTid == d.tid

def commitStart : LayerScheduler :=
  { s with
    seqInitialized := true
    expectedSeq := d.seq + 1
    startedSids := if d.bBit then insert d.sid s.startedSids else s.startedSids
    keyframeActive := s.keyframeActive || d.startKeyframe
    keyframeFailed := s.keyframeFailed && !d.startKeyframe
    keyframeTimestamp := if d.startKeyframe then d.rtpTimestamp else s.keyframeTimestamp
    transitionActive := s.transitionActive || d.startTransition
    transitionFailed := s.transitionFailed && !d.startTransition
    transitionSid := if d.startTransition then d.sid else s.transitionSid
    transitionTimestamp := if d.startTransition then d.rtpTimestamp else s.transitionTimestamp
    temporalTransitionActive := s.temporalTransitionActive || d.startTemporalTransition
    temporalTransitionFailed := s.temporalTransitionFailed && !d.startTemporalTransition
    temporalTransitionTid := if d.startTemporalTransition then d.tid else s.temporalTransitionTid
    temporalTransitionTimestamp :=
      if d.startTemporalTransition then d.rtpTimestamp else s.temporalTransitionTimestamp }

/-- The pacer's enhancement frame after a forwarded packet. -/
def commitPacer : LayerScheduler :=
  if d.pacerFrameStart && !d.pacerFrameEnd then
    { s with
      pacerFrameActive := true
      pacerFrameTimestamp := d.rtpTimestamp
      pacerFrameSid := d.sid
      pacerFrameTid := d.tid }
  else if d.pacerFrameEnd && s.decidesPacerFrame d then { s with pacerFrameActive := false }
  else s

/-- A layer whose last packet was forwarded is complete, and so is a keyframe. -/
def commitFrameEnd : LayerScheduler :=
  let s :=
    if d.eBit = true ∧ d.sid ∉ s.failedSids then
      { s with completedSids := insert d.sid s.completedSids }
    else s
  if d.keyframePacket && d.eBit then
    let complete := s.keyframeActive && !s.keyframeFailed &&
      s.keyframeTimestamp == d.rtpTimestamp && decide (d.sid ∉ s.failedSids)
    let s := { s with
      needsKeyframe := !complete, keyframeActive := false, keyframeFailed := !complete }
    if complete = true ∧ s.source = .screen then { s with targetTid := 2, currentTid := 2 } else s
  else s

def commitSpatial : LayerScheduler :=
  if s.transitionActive && s.transitionTimestamp == d.rtpTimestamp && s.transitionSid == d.sid &&
      d.eBit then
    { s with
      currentSid :=
        if s.transitionFailed = false ∧ d.sid ∉ s.failedSids ∧ d.sid ≤ s.targetSid then d.sid
        else s.currentSid
      transitionActive := false
      transitionFailed := false }
  else s

def commitTemporal : LayerScheduler :=
  if s.temporalTransitionActive && s.temporalTransitionTimestamp == d.rtpTimestamp &&
      s.temporalTransitionTid == d.tid && d.eBit then
    { s with
      currentTid :=
        if s.temporalTransitionFailed = false ∧ d.sid ∉ s.failedSids ∧ d.tid ≤ s.targetTid then
          d.tid
        else s.currentTid
      temporalTransitionActive := false
      temporalTransitionFailed := false }
  else s

def inPicture : Bool := s.pictureValid && s.pictureTimestamp == d.rtpTimestamp && decide (d.sid < 8)

def commitPacket : LayerScheduler :=
  if !d.shouldForward || !s.inPicture d then s
  else ((((s.commitStart d).commitPacer d).commitFrameEnd d).commitSpatial d).commitTemporal d

/-- A rejected packet breaks the decode state: it belongs to a screen, or to a camera layer the
subscriber is at and was turned down for a reason that leaves a hole. -/
def rejectBreaks : Bool :=
  let started := decide (d.sid ∈ s.startedSids)
  let activeCameraLayer := decide (s.source = .video) && (decide (d.sid ≤ s.currentSid) || started)
  let expectedReject := decide (d.rejectReason = .none) ||
    decide (d.rejectReason = .keyframeRequired) || decide (d.rejectReason = .keyframeMismatch) ||
    decide (d.rejectReason = .missingFrameStart) || decide (d.rejectReason = .sequenceGap) ||
    started
  decide (s.source = .screen) || (activeCameraLayer && expectedReject)

def rejectPacket : LayerScheduler :=
  if !s.inPicture d then s
  else
    let breaksKeyframe := d.keyframePacket ||
      (s.keyframeActive && s.keyframeTimestamp == d.rtpTimestamp && d.sid == 0)
    { s with
      failedSids := insert d.sid s.failedSids
      pacerFrameActive := s.pacerFrameActive && !s.decidesPacerFrame d
      needsKeyframe := s.needsKeyframe || breaksKeyframe || s.rejectBreaks d
      keyframeActive := s.keyframeActive && !breaksKeyframe
      keyframeFailed := s.keyframeFailed || breaksKeyframe
      frameCorrupted := s.frameCorrupted || decide (d.rejectReason = .sequenceGap)
      transitionFailed := s.transitionFailed ||
        ((d.startTransition || s.transitionActive) && s.transitionTimestamp == d.rtpTimestamp &&
          s.transitionSid == d.sid)
      temporalTransitionFailed := s.temporalTransitionFailed ||
        ((d.startTemporalTransition || s.temporalTransitionActive) &&
          s.temporalTransitionTimestamp == d.rtpTimestamp &&
          s.temporalTransitionTid == d.tid) }

end

/-! ### The target layers -/

structure Rung where
  rateBps : ℕ
  sid : ℕ
  tid : ℕ
deriving DecidableEq

/-- `k_layer_ladder`, from the lowest rung. -/
def ladder : List Rung := [⟨200000, 0, 0⟩, ⟨600000, 0, 1⟩, ⟨1200000, 0, 2⟩]

/-- The highest rung of the ladder with a property, with its index. -/
def highestRung (p : Rung → Bool) : Option (ℕ × Rung) :=
  (ladder.zipIdx.map Prod.swap).reverse.find? fun r => p r.2

/-- The index `i` lies above a rung, or above no rung at all. -/
def above (i : ℕ) : Option (ℕ × Rung) → Bool
  | none => true
  | some r => decide (r.1 < i)

/-- The rung for a rate: the highest with a headroom of a fifth, or the one the target is at, as
long as the rate still covers it. -/
def chosenRung (s : LayerScheduler) (bitrateBps : ℕ) : Option (ℕ × Rung) :=
  let chosen := highestRung fun r => decide (r.rateBps * 6 / 5 ≤ bitrateBps)
  let current := highestRung fun r => decide (r.sid ≤ s.targetSid ∧ r.tid ≤ s.targetTid)
  if s.lastTargetChangeUs ≠ 0 ∧ above (ladder.length - 1) chosen = true then
    match current with
    | some r => if above r.1 chosen = true ∧ r.2.rateBps ≤ bitrateBps then some r else chosen
    | none => chosen
  else chosen

/-- `sfu_layer_scheduler_set_bitrate`; a camera goes up at most every three seconds. -/
def setBitrate (s : LayerScheduler) (bitrateBps : ℕ) (now : ℤ) : LayerScheduler :=
  let chosen := s.chosenRung bitrateBps
  let s := { s with allocatedBps := bitrateBps }
  let targetSid := (chosen.map fun r => r.2.sid).getD 0
  let targetTid := if s.source = .screen then 2 else (chosen.map fun r => r.2.tid).getD 0
  if targetSid = s.targetSid ∧ targetTid = s.targetTid then s
  else
    let isUpgrade := s.targetSid < targetSid ∨ (targetSid = s.targetSid ∧ s.targetTid < targetTid)
    if s.source ≠ .screen ∧ isUpgrade ∧ s.lastTargetChangeUs ≠ 0 ∧
        now - s.lastTargetChangeUs < 3000000 then s
    else { s with lastTargetChangeUs := now, targetSid := targetSid, targetTid := targetTid }

end LayerScheduler

/-- `sfu_layer_scheduler_slot_t`; the key is `publisher << 8 | source`, zero for a free slot. -/
structure SchedulerSlot where
  publisher : ℕ
  source : MediaKind
  sched : LayerScheduler
deriving DecidableEq

def SchedulerSlot.zero : SchedulerSlot := ⟨0, .audio, .zero⟩

def layerSchedulerCap : ℕ := 16

/-- `sfu_layer_scheduler_for_stream`: the schedulers, and the slot of the stream's if it has or
gets one. -/
def layerSchedulerForStream (ready : Bool) (t : ℕ → SchedulerSlot) (publisherId : ℕ)
    (source : MediaKind) : (ℕ → SchedulerSlot) × Option ℕ :=
  if !ready ∨ publisherId = 0 ∨ source = .audio then (t, none)
  else
    let slots := List.range layerSchedulerCap
    match slots.find? fun i => (t i).publisher = publisherId ∧ (t i).source = source with
    | some i =>
      (Function.update t i { t i with sched := (t i).sched.forStream source }, some i)
    | none =>
      match slots.find? fun i => (t i).publisher = 0 with
      | none => (t, none)
      | some i =>
        (Function.update t i ⟨publisherId, source, LayerScheduler.init.forStream source⟩, some i)

end MezonSfu.Svc
