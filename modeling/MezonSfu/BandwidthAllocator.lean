import MezonSfu.WaterFill

/-!
The bandwidth allocator: how the estimate for a subscriber is split over the screens and cameras
it receives.

The allocator fills screens up to the preferred rate, then admits cameras, then raises the
screens to their cap or, when there is none, the cameras to theirs. Every filling is a pass of
water filling over the streams of one kind.
-/

namespace MezonSfu.Bandwidth

open WaterFill

/-! ### The configuration -/

/-- The fields of `sfu_config_t` that the validator reads. -/
structure Config where
  mediaPort : ℕ
  signalingPort : ℕ
  packetBufSize : ℕ
  packetPoolCapacity : ℕ
  providedBufCount : ℕ
  workerQueueCapacity : ℕ
  fanoutRingCapacity : ℕ
  fanoutJobPoolCapacity : ℕ
  releaseQueueCapacity : ℕ
  bandwidthVideoPoolPercent : ℕ
  bandwidthSourceAdmissionBps : ℕ
  bandwidthScreenPreferredBps : ℕ
  bandwidthScreenMidBps : ℕ
  bandwidthScreenCapBps : ℕ
  bandwidthCameraMidBps : ℕ
  bandwidthCameraCapBps : ℕ
  aloneParticipantTimeoutSeconds : ℕ
deriving DecidableEq, Repr

/-- `REQUIRE_POWER_OF_TWO`. -/
def isPowerOfTwo (value : ℕ) : Bool := value ≠ 0 && value &&& (value - 1) == 0

variable (c : Config)

def Config.validPolicy : Bool :=
  !(c.bandwidthVideoPoolPercent = 0 || 100 < c.bandwidthVideoPoolPercent ||
    c.bandwidthSourceAdmissionBps = 0 ||
    c.bandwidthScreenPreferredBps < c.bandwidthSourceAdmissionBps ||
    c.bandwidthScreenMidBps < c.bandwidthScreenPreferredBps ||
    c.bandwidthScreenCapBps < c.bandwidthScreenMidBps ||
    c.bandwidthCameraMidBps < c.bandwidthSourceAdmissionBps ||
    c.bandwidthCameraCapBps < c.bandwidthCameraMidBps)

def configValidate : Bool :=
  !(c.mediaPort = 0 || c.signalingPort = 0 || c.packetBufSize < 1200 ||
    c.packetPoolCapacity = 0) &&
  isPowerOfTwo c.providedBufCount && isPowerOfTwo c.workerQueueCapacity &&
  isPowerOfTwo c.fanoutRingCapacity && isPowerOfTwo c.releaseQueueCapacity &&
  !(c.fanoutJobPoolCapacity < c.fanoutRingCapacity) &&
  !(16777216 < c.packetPoolCapacity) && c.validPolicy &&
  !(86400 < c.aloneParticipantTimeoutSeconds)

def Config.defaults : Config where
  mediaPort := 7000
  signalingPort := 8000
  packetBufSize := 2048
  packetPoolCapacity := 262144
  providedBufCount := 8192
  workerQueueCapacity := 16384
  fanoutRingCapacity := 4096
  fanoutJobPoolCapacity := 16384
  releaseQueueCapacity := 8192
  bandwidthVideoPoolPercent := 85
  bandwidthSourceAdmissionBps := 240000
  bandwidthScreenPreferredBps := 2000000
  bandwidthScreenMidBps := 3000000
  bandwidthScreenCapBps := 3500000
  bandwidthCameraMidBps := 720000
  bandwidthCameraCapBps := 1000000
  aloneParticipantTimeoutSeconds := 1800

def sourceAdmissionBps : ℕ := 240000

def policyValue (configured fallback : ℕ) : ℕ := if configured ≠ 0 then configured else fallback

def Config.poolPercent : ℕ := policyValue c.bandwidthVideoPoolPercent 85
def Config.admissionBps : ℕ :=
  policyValue c.bandwidthSourceAdmissionBps sourceAdmissionBps
def Config.screenPreferredBps : ℕ := policyValue c.bandwidthScreenPreferredBps 2000000
def Config.screenMidBps : ℕ := policyValue c.bandwidthScreenMidBps 3000000
def Config.screenCapBps : ℕ := policyValue c.bandwidthScreenCapBps 3500000
def Config.cameraMidBps : ℕ := policyValue c.bandwidthCameraMidBps 720000
def Config.cameraCapBps : ℕ := policyValue c.bandwidthCameraCapBps 1000000

/-! ### Streams -/

/-- `sfu_bandwidth_stream_kind_t`; `other` is any value that is neither of the two. -/
inductive StreamKind
  | other | camera | screen
deriving DecidableEq, Repr

def StreamKind.code : StreamKind → ℕ
  | .other => 0
  | .camera => 1
  | .screen => 2

structure StreamInput where
  publisherPeerId : ℕ
  remoteSlot : ℕ
  assignmentGeneration : ℕ
  kind : StreamKind
  active : Bool
deriving DecidableEq, Repr

structure StreamAllocation where
  publisherPeerId : ℕ
  remoteSlot : ℕ
  assignmentGeneration : ℕ
  kind : StreamKind
  allocatedBps : ℕ
deriving DecidableEq, Repr

structure PublisherAllocation where
  publisherPeerId : ℕ
  allocatedBps : ℕ
deriving DecidableEq, Repr

/-- `sfu_bandwidth_allocation_t`; the counts are the lengths of the lists. -/
structure Allocation where
  estimatedBps : ℕ
  reserveBps : ℕ
  videoPoolBps : ℕ
  allocatedBps : ℕ
  unallocatedBps : ℕ
  streams : List StreamAllocation
  publishers : List PublisherAllocation
deriving DecidableEq, Repr

def maxStreams : ℕ := 16

def streamKeyLess (a b : StreamInput) : Bool :=
  if a.remoteSlot ≠ b.remoteSlot then a.remoteSlot < b.remoteSlot
  else if a.publisherPeerId ≠ b.publisherPeerId then a.publisherPeerId < b.publisherPeerId
  else if a.kind ≠ b.kind then a.kind.code < b.kind.code
  else a.assignmentGeneration < b.assignmentGeneration

def sameStreamKey (a b : StreamInput) : Bool :=
  a.publisherPeerId = b.publisherPeerId && a.remoteSlot = b.remoteSlot &&
    a.assignmentGeneration = b.assignmentGeneration && a.kind = b.kind

/-- An input is moved down past the larger keys; in a full order the last one gives way. -/
def insertInput (order : List StreamInput) (x : StreamInput) : List StreamInput :=
  if order.length = maxStreams ∧ order.getLast?.all (fun y => !streamKeyLess x y) then order
  else
    let kept := if order.length < maxStreams then order else order.dropLast
    let larger := kept.reverse.takeWhile (streamKeyLess x)
    kept.take (kept.length - larger.length) ++ x :: larger.reverse

def considerInput (order : List StreamInput) (x : StreamInput) : List StreamInput :=
  if !x.active || x.publisherPeerId = 0 || x.kind = .other then order
  else if order.any (sameStreamKey x) then order
  else insertInput order x

def selectInputs (inputs : List StreamInput) : List StreamInput := inputs.foldl considerInput []

def StreamInput.stream (x : StreamInput) : StreamAllocation :=
  ⟨x.publisherPeerId, x.remoteSlot, x.assignmentGeneration, x.kind, 0⟩

/-- The streams of an order, without neighbours of the same key. -/
def streamsOf : Option StreamInput → List StreamInput → List StreamAllocation
  | _, [] => []
  | prev, x :: order =>
    if prev.any (sameStreamKey x) then streamsOf (some x) order
    else x.stream :: streamsOf (some x) order

/-! ### Filling -/

def streamClass (kind : StreamKind) : WaterFill.Class StreamAllocation where
  mem s := decide (s.kind = kind)
  level := StreamAllocation.allocatedBps
  raise s x := { s with allocatedBps := x }
  level_raise _ _ := rfl
  mem_raise _ _ := rfl

def fillClass (kind : StreamKind) (targetBps : ℕ) (r : List StreamAllocation × ℕ) :
    List StreamAllocation × ℕ :=
  (streamClass kind).fill targetBps r.1 r.2

def hasScreen (streams : List StreamAllocation) : Bool := streams.any fun s => s.kind = .screen

variable (c : Config)

def fillScreens (r : List StreamAllocation × ℕ) : List StreamAllocation × ℕ :=
  fillClass .screen c.screenPreferredBps
    (fillClass .screen (min c.admissionBps c.screenCapBps) r)

def fillCameras (r : List StreamAllocation × ℕ) : List StreamAllocation × ℕ :=
  fillClass .camera (min c.admissionBps c.cameraCapBps) r

/-- The rest goes to the screens, or to the cameras when there is no screen. -/
def fillRest (screens : Bool) (r : List StreamAllocation × ℕ) : List StreamAllocation × ℕ :=
  if screens then
    fillClass .screen c.screenCapBps (fillClass .screen c.screenMidBps r)
  else fillClass .camera c.cameraCapBps (fillClass .camera c.cameraMidBps r)

def fillAll (streams : List StreamAllocation) (poolBps : ℕ) : List StreamAllocation × ℕ :=
  fillRest c (hasScreen streams) (fillCameras c (fillScreens c (streams, poolBps)))

def uint32Max : ℕ := 2 ^ 32 - 1

/-- A stream's rate is added to its publisher, who is appended when it is new. -/
def addPublisher : List PublisherAllocation → StreamAllocation → List PublisherAllocation
  | [], s => [⟨s.publisherPeerId, min s.allocatedBps uint32Max⟩]
  | p :: ps, s =>
    if p.publisherPeerId = s.publisherPeerId then
      ⟨p.publisherPeerId, min (p.allocatedBps + s.allocatedBps) uint32Max⟩ :: ps
    else p :: addPublisher ps s

def videoPool (estimatedBps : ℕ) : ℕ :=
  estimatedBps / 100 * c.poolPercent + estimatedBps % 100 * c.poolPercent / 100

def allocate (inputs : List StreamInput) (estimatedBps : ℕ) : Allocation :=
  let pool := videoPool c estimatedBps
  if inputs = [] ∨ pool = 0 then
    ⟨estimatedBps, estimatedBps - pool, pool, 0, pool, [], []⟩
  else
    let streams := (fillAll c (streamsOf none (selectInputs inputs)) pool).1
    let allocated := (streams.map StreamAllocation.allocatedBps).sum
    ⟨estimatedBps, estimatedBps - pool, pool, allocated, pool - allocated, streams,
      streams.foldl addPublisher []⟩

def hasUnmetDemand (a : Allocation) : Bool :=
  a.streams.any fun s => match s.kind with
    | .screen => s.allocatedBps < c.screenCapBps
    | .camera => s.allocatedBps <
        if hasScreen a.streams then min c.admissionBps c.cameraCapBps else c.cameraCapBps
    | .other => false

end MezonSfu.Bandwidth
