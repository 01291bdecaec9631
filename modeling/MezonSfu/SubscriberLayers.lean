import MezonSfu.BandwidthLaws
import MezonSfu.LayerScheduler
import MezonSfu.RoomGraph

/-!
From an estimate to the rates of a subscriber's streams, and back to the publishers.

`updateLayers` offers the first active streams of the receiver snapshot to the allocator, tells
the schedulers their rates and leaves a contribution for each publisher. A publisher's target is
the largest contribution it finds over its routes.
-/

namespace MezonSfu.Bandwidth

open RemoteSlots RoomGraph Svc

/-! ### The streams of a snapshot -/

def screenInput (slot : ℕ) (e : ReceiverEntry) : StreamInput :=
  ⟨e.publisherPeerId, slot, e.assignmentGeneration, .screen, true⟩

def cameraInput (slot : ℕ) (e : ReceiverEntry) : StreamInput :=
  ⟨e.publisherPeerId, slot, e.assignmentGeneration, .camera, true⟩

def addInput (present : Bool) (x : StreamInput) (inputs : List StreamInput) : List StreamInput :=
  if present && inputs.length < maxStreams then inputs ++ [x] else inputs

/-- The loop of `sfu_svc_update_layers` that collects the inputs. -/
def collectInputs : List (ℕ × ReceiverEntry) → List StreamInput → List StreamInput
  | [], inputs => inputs
  | (slot, e) :: entries, inputs =>
    if maxStreams ≤ inputs.length then inputs
    else if e.publisherPeerId = 0 then collectInputs entries inputs
    else
      let inputs := addInput (e.hasScreen && e.screenActive) (screenInput slot e) inputs
      let inputs := addInput (e.hasVideo && e.videoActive) (cameraInput slot e) inputs
      collectInputs entries inputs

/-- The allocation `sfu_svc_update_layers` makes. -/
def layerAllocation (c : Config) (snapshot : Option ReceiverSnapshot) (bitrateBps : ℕ) :
    Allocation :=
  allocate c ((snapshot.map fun snap => collectInputs snap.entries []).getD []) bitrateBps

def allocationForStream (a : Allocation) (publisherPeerId : ℕ) (kind : StreamKind) : ℕ :=
  ((a.streams.find? fun s => s.publisherPeerId = publisherPeerId ∧ s.kind = kind).map
    StreamAllocation.allocatedBps).getD 0

def sourceDemandBps (allocationBps : ℕ) : ℕ :=
  if sourceAdmissionBps ≤ allocationBps then allocationBps else 0

/-- `sfu_remb_contribution_t`. The sequence counter has no part when calls do not overlap. -/
structure RembContribution where
  assignmentGeneration : ℕ
  cameraBitrateBps : ℕ
  screenBitrateBps : ℕ
  updatedAtUs : ℕ
deriving DecidableEq, Repr

def writeRembContribution (cells : ℕ → RembContribution) (remoteSlot : ℕ)
    (x : RembContribution) : ℕ → RembContribution :=
  if maxRemoteSlots ≤ remoteSlot ∨ x.assignmentGeneration = 0 then cells
  else Function.update cells remoteSlot x

/-- `sfu_session_read_remb_contribution`: the camera's and the screen's rate. -/
def readRembContribution (cells : ℕ → RembContribution) (remoteSlot assignmentGeneration : ℕ)
    (nowUs maxAgeUs : ℕ) : Option (ℕ × ℕ) :=
  if maxRemoteSlots ≤ remoteSlot ∨ assignmentGeneration = 0 then none
  else
    let x := cells remoteSlot
    if x.assignmentGeneration ≠ assignmentGeneration ∨ x.updatedAtUs = 0 ∨
        nowUs < x.updatedAtUs then none
    else if maxAgeUs < nowUs - x.updatedAtUs then none
    else some (x.cameraBitrateBps, x.screenBitrateBps)

def contribution (a : Allocation) (e : ReceiverEntry) (nowUs : ℕ) : RembContribution :=
  ⟨e.assignmentGeneration, sourceDemandBps (allocationForStream a e.publisherPeerId .camera),
    sourceDemandBps (allocationForStream a e.publisherPeerId .screen), nowUs⟩

def contribute (a : Allocation) (nowUs : ℕ) (entries : List (ℕ × ReceiverEntry))
    (cells : ℕ → RembContribution) : ℕ → RembContribution :=
  entries.foldl (fun cells x => writeRembContribution cells x.1 (contribution a x.2 nowUs)) cells

def StreamKind.source (kind : StreamKind) : MediaKind := if kind = .screen then .screen else .video

/-- An entry keeps the scheduler of a stream that it has and that is active. -/
def keepsScheduler (e : ReceiverEntry) (slot : SchedulerSlot) : Bool :=
  e.publisherPeerId ≠ 0 && slot.publisher = e.publisherPeerId &&
    ((e.hasVideo && e.videoActive && slot.source = .video) ||
      (e.hasScreen && e.screenActive && slot.source = .screen))

/-- `sfu_layer_scheduler_prune`, with a snapshot. -/
def layerSchedulerPrune (snap : ReceiverSnapshot) (t : ℕ → SchedulerSlot) : ℕ → SchedulerSlot :=
  fun i => if (t i).publisher ≠ 0 ∧ i < layerSchedulerCap ∧
    ¬ snap.entries.any (fun x => keepsScheduler x.2 (t i)) then .zero else t i

def tellScheduler (ready : Bool) (nowUs : ℕ) (t : ℕ → SchedulerSlot) (s : StreamAllocation) :
    ℕ → SchedulerSlot :=
  let (t, slot) := layerSchedulerForStream ready t s.publisherPeerId s.kind.source
  match slot with
  | none => t
  | some i =>
    let sched := (t i).sched.setBitrate s.allocatedBps nowUs
    let sched := if s.kind = .screen then { sched with targetTid := 2, currentTid := 2 } else sched
    Function.update t i { t i with sched := sched }

def allocationContainsStream (a : Allocation) (slot : SchedulerSlot) : Bool :=
  a.streams.any fun s => s.publisherPeerId = slot.publisher ∧ s.kind.source = slot.source

/-- The schedulers after an allocation; those of no allocated stream go down to nothing. -/
def tellSchedulers (ready : Bool) (snapshot : Option ReceiverSnapshot) (a : Allocation)
    (nowUs : ℕ) (t : ℕ → SchedulerSlot) : ℕ → SchedulerSlot :=
  let pruned := match snapshot with
    | some snap => if ready then layerSchedulerPrune snap t else t
    | none => t
  let told := a.streams.foldl (tellScheduler ready nowUs) pruned
  fun i =>
    if i < layerSchedulerCap ∧ (told i).publisher ≠ 0 ∧ ¬ allocationContainsStream a (told i) then
      { told i with sched := (told i).sched.setBitrate 0 nowUs }
    else told i

/-- What `sfu_svc_update_layers` changes of a session, the pacer apart. -/
structure LayerState where
  contributions : ℕ → RembContribution
  /-- What the probe controller was told, where there is one. -/
  unmetDemand : Option Bool
  videoRuntimeReady : Bool
  schedulers : Option (ℕ → SchedulerSlot)

/-- `sfu_svc_update_layers`. All clocks it reads show `nowUs`. -/
def updateLayers (c : Config) (snapshot : Option ReceiverSnapshot) (bitrateBps nowUs : ℕ)
    (s : LayerState) : LayerState :=
  let a := layerAllocation c snapshot bitrateBps
  { s with
    unmetDemand := s.unmetDemand.map fun _ => hasUnmetDemand c a
    contributions := match snapshot with
      | some snap => contribute a nowUs snap.entries s.contributions
      | none => s.contributions
    schedulers := s.schedulers.map (tellSchedulers s.videoRuntimeReady snapshot a nowUs) }

/-! ### The publisher's side -/

def contributionMaxAgeUs : ℕ := 2000000

def FanoutRoute.eligibleFor (r : FanoutRoute) : StreamKind → Bool
  | .screen => r.eligible.screen
  | _ => r.eligible.video

/-- The routes of a bundle that an iteration for a kind of stream visits. -/
def eligibleRoutes (bundle : FanoutBundle) (kind : StreamKind) : List FanoutRoute :=
  (bundle.entries.map Prod.snd).filter fun r => FanoutRoute.eligibleFor r kind

section

variable (cells : SessionId → ℕ → RembContribution)

def routeContribution (nowUs : ℕ) (kind : StreamKind) (r : FanoutRoute) : Option ℕ :=
  (readRembContribution (cells r.subscriber) r.remoteSlot r.assignmentGeneration nowUs
    contributionMaxAgeUs).map fun x => if kind = .screen then x.2 else x.1

/-- One pass over the routes: the target and the number of fresh contributions. -/
def rembPass (nowUs : ℕ) (kind : StreamKind) (routes : List FanoutRoute) : ℕ × ℕ :=
  routes.foldl (fun acc r => match routeContribution cells nowUs kind r with
    | some bps => (if acc.1 < bps then bps else acc.1, acc.2 + 1)
    | none => acc) (0, 0)

end

/-- The fields of a publisher that the targets are compared with. -/
structure PublisherRemb where
  lastRembTargetBps : ℕ
  lastCameraRembBps : ℕ
  lastCameraRembTimeUs : ℕ
  lastScreenRembBps : ℕ
  lastScreenRembTimeUs : ℕ
deriving DecidableEq, Repr

/-- The targets of `sfu_session_maybe_send_publisher_remb`, for the camera and the screen. A
screen that nobody has reported on yet starts at the preferred rate. -/
def rembTargets (c : Config) (bundle : FanoutBundle) (cells : SessionId → ℕ → RembContribution)
    (nowUs lastScreenRembBps : ℕ) : ℕ × ℕ :=
  let camera := rembPass cells nowUs .camera (eligibleRoutes bundle .camera)
  let screenRoutes := eligibleRoutes bundle .screen
  let screen := rembPass cells nowUs .screen screenRoutes
  (camera.1,
    if screen.1 = 0 ∧ screenRoutes ≠ [] ∧ screen.2 = 0 ∧ lastScreenRembBps = 0 then
      c.screenPreferredBps
    else screen.1)

def publisherRembDue (lastTimeUs lastBps bitrateBps nowUs : ℕ) : Bool :=
  if lastTimeUs = 0 ∨ lastBps = 0 then true
  else
    let elapsed : ℤ := nowUs - lastTimeUs
    let delta := if lastBps < bitrateBps then bitrateBps - lastBps else lastBps - bitrateBps
    (bitrateBps < lastBps ∧ bitrateBps * 5 ≤ lastBps * 4 ∧ 100000 ≤ elapsed) ∨
      (lastBps ≤ delta * 10 ∧ 500000 ≤ elapsed) ∨ 2000000 ≤ elapsed

/-- `sfu_session_maybe_send_publisher_remb`. `accepts` says whether the session accepts work and
is owned by the caller, `send` whether a message can be sent for a kind of stream. The messages
are returned. -/
def maybeSendPublisherRemb (c : Config) (accepts : Bool) (bundle : FanoutBundle)
    (cells : SessionId → ℕ → RembContribution) (nowUs : ℕ) (send : StreamKind → Bool)
    (p : PublisherRemb) : PublisherRemb × List (StreamKind × ℕ) :=
  if nowUs = 0 ∨ ¬ accepts then (p, [])
  else
    let targets := rembTargets c bundle cells nowUs p.lastScreenRembBps
    let p := { p with lastRembTargetBps := max targets.1 targets.2 }
    let camera := 0 < targets.1 ∧ send .camera ∧
      publisherRembDue p.lastCameraRembTimeUs p.lastCameraRembBps targets.1 nowUs
    let screen := 0 < targets.2 ∧ send .screen ∧
      publisherRembDue p.lastScreenRembTimeUs p.lastScreenRembBps targets.2 nowUs
    let p := if camera then
      { p with lastCameraRembBps := targets.1, lastCameraRembTimeUs := nowUs } else p
    let p := if screen then
      { p with lastScreenRembBps := targets.2, lastScreenRembTimeUs := nowUs } else p
    (p, (if camera then [(.camera, targets.1)] else []) ++
      if screen then [(.screen, targets.2)] else [])

end MezonSfu.Bandwidth
