import MezonSfu.RemoteSlots
import MezonSfu.SlotMap

/-!
The media graph of a room: who receives from whom, over which remote slot.

Every member has a receiver snapshot, an entry per publisher, a fanout bundle, a route per
subscriber, and the table of its remote slots. Joining, leaving, a role change and a refresh
reserve the slots they need and rewrite the snapshots and bundles of all members.

Sessions are addresses. Snapshots and bundles are arrays of cells with a generation; the null
root of a new session is the empty array of generation zero, which a copy treats alike. Whether
an allocation succeeds, whether the video runtime of a subscriber can be set up and whether a
session still accepts work at the second look are inputs.
-/

namespace MezonSfu.RoomGraph

open RemoteSlots Function

def roomMaxPeers : ℕ := 300

abbrev SessionId := ℕ

inductive VideoCodec where
  | none
  | vp8
  | vp9
  | av1
  | h264
  deriving DecidableEq, Repr

/-- The fields of an uplink transceiver that the graph reads. -/
structure Transceiver where
  ssrc : ℕ
  rtxSsrc : ℕ
  payloadType : ℕ
  rtxPayloadType : ℕ
  codec : VideoCodec
  active : Bool
  deriving DecidableEq, Repr

structure Media where
  uplinkAudio : Transceiver
  uplinkVideo : Transceiver
  screen : Transceiver
  audioSendNegotiated : Bool
  videoSendNegotiated : Bool
  screenSendNegotiated : Bool
  screenKeyframeRecoveryPending : Bool
  cameraEnabled : Bool
  screenEnabled : Bool
  cameraRtpObserved : Bool
  screenRtpObserved : Bool
  pttActive : Bool
  deriving DecidableEq, Repr

/-- An entry of a receiver snapshot. `subscriber` is the source's name for the session the
entry is about, the publisher. -/
structure ReceiverEntry where
  subscriber : SessionId
  publisherUserId : ℤ
  publisherPeerId : ℕ
  audioSsrc : ℕ
  videoSsrc : ℕ
  videoRtxSsrc : ℕ
  screenSsrc : ℕ
  screenRtxSsrc : ℕ
  remoteSlot : ℕ
  assignmentGeneration : ℕ
  videoPt : ℕ
  videoRtxPt : ℕ
  screenPt : ℕ
  screenRtxPt : ℕ
  videoCodec : VideoCodec
  screenCodec : VideoCodec
  hasAudio : Bool
  hasVideo : Bool
  hasScreen : Bool
  audioActive : Bool
  videoActive : Bool
  screenActive : Bool
  deriving DecidableEq, Repr

structure Eligibility where
  audio : Bool
  video : Bool
  screen : Bool
  deriving DecidableEq, Repr

/-- A route of a fanout bundle, with its bits in the chunk. -/
structure FanoutRoute where
  subscriber : SessionId
  videoSsrc : ℕ
  videoRtxSsrc : ℕ
  screenSsrc : ℕ
  screenRtxSsrc : ℕ
  remoteSlot : ℕ
  assignmentGeneration : ℕ
  videoPt : ℕ
  videoRtxPt : ℕ
  screenPt : ℕ
  screenRtxPt : ℕ
  eligible : Eligibility
  deriving DecidableEq, Repr

abbrev ReceiverSnapshot := SlotMap maxRemoteSlots ReceiverEntry
abbrev FanoutBundle := SlotMap maxRemoteSlots FanoutRoute

/-- The cell of a session's entry, `sfu_receiver_snapshot_find_peer`. -/
def snapshotFind (snap : ReceiverSnapshot) (source : SessionId) : Option ℕ :=
  snap.find ReceiverEntry.subscriber source

/-- The cell of a session's route, `sfu_fanout_bundle_find_peer`. -/
def bundleFind (bundle : FanoutBundle) (subscriber : SessionId) : Option ℕ :=
  bundle.find FanoutRoute.subscriber subscriber

structure Session where
  userId : ℤ
  peerId : ℕ
  isAudience : Bool
  acceptsWork : Bool
  /-- The room the session is in. -/
  room : Option ℕ
  roomSlot : ℕ
  media : Media
  receivers : ReceiverSnapshot
  fanoutBundle : FanoutBundle
  remoteSlots : SlotTable

/-- `room_slot` of a session outside a room, `UINT32_MAX`. -/
def noRoomSlot : ℕ := 2 ^ 32 - 1

structure Room where
  roomId : ℕ
  peerCapacity : ℕ
  peers : ℕ → Option SessionId
  occupied : ℕ → Bool
  /-- The stack of free slots, its top first; `free_count` is its length. -/
  freeSlots : List ℕ
  peerCount : ℕ
  membershipRevision : ℕ

def Room.init (roomId : ℕ) : Room :=
  ⟨roomId, roomMaxPeers, fun _ => none, fun _ => false, List.range roomMaxPeers, 0, 0⟩

/-- The queue of membership events at the signaling server. -/
structure MembershipQueue where
  accepting : Bool
  count : ℕ
  reservedCount : ℕ
  deriving DecidableEq, Repr

/-- `sfu_signaling_reserve_membership_event`. The caller waits while the queue is full; this is
the call once the wait is over. -/
def reserveMembershipEvent (q : MembershipQueue) : Option MembershipQueue :=
  if q.accepting then some { q with reservedCount := q.reservedCount + 1 } else none

def commitMembershipEvent (q : MembershipQueue) : MembershipQueue :=
  { q with count := q.count + 1, reservedCount := q.reservedCount - 1 }

structure Graph where
  room : Room
  session : SessionId → Session
  queue : MembershipQueue

variable (g : Graph) (peer : SessionId)

def Graph.modify (p : SessionId) (f : Session → Session) : Graph :=
  { g with session := update g.session p (f (g.session p)) }

/-! ### Entries and routes -/

def snapshotFillEntry (e : ReceiverEntry) (source : SessionId) (s : Session) : ReceiverEntry :=
  { e with
    subscriber := source
    publisherUserId := s.userId
    publisherPeerId := s.peerId
    audioSsrc := s.media.uplinkAudio.ssrc
    videoSsrc := s.media.uplinkVideo.ssrc
    videoRtxSsrc := s.media.uplinkVideo.rtxSsrc
    videoPt := s.media.uplinkVideo.payloadType
    videoRtxPt := s.media.uplinkVideo.rtxPayloadType
    videoCodec := s.media.uplinkVideo.codec
    screenSsrc := s.media.screen.ssrc
    screenRtxSsrc := s.media.screen.rtxSsrc
    screenPt := s.media.screen.payloadType
    screenRtxPt := s.media.screen.rtxPayloadType
    screenCodec := s.media.screen.codec
    audioActive := s.media.uplinkAudio.active
    videoActive := s.media.uplinkVideo.active
    screenActive := s.media.screen.active
    hasAudio := true
    hasVideo := !s.isAudience
    hasScreen := !s.isAudience }

def ReceiverEntry.blank (remoteSlot assignmentGeneration : ℕ) : ReceiverEntry :=
  ⟨0, 0, 0, 0, 0, 0, 0, 0, remoteSlot, assignmentGeneration, 0, 0, 0, 0, .none, .none,
    false, false, false, false, false, false⟩

def Graph.newEntry (source : SessionId) (slot generation : ℕ) : ReceiverEntry :=
  snapshotFillEntry (.blank slot generation) source (g.session source)

def receiverEntrySdpChanged (old new : ReceiverEntry) : Bool :=
  old.audioSsrc ≠ new.audioSsrc || old.videoSsrc ≠ new.videoSsrc ||
    old.videoRtxSsrc ≠ new.videoRtxSsrc || old.screenSsrc ≠ new.screenSsrc ||
    old.screenRtxSsrc ≠ new.screenRtxSsrc || old.videoPt ≠ new.videoPt ||
    old.videoRtxPt ≠ new.videoRtxPt || old.screenPt ≠ new.screenPt ||
    old.screenRtxPt ≠ new.screenRtxPt || old.videoCodec ≠ new.videoCodec ||
    old.screenCodec ≠ new.screenCodec || old.hasAudio ≠ new.hasAudio ||
    old.hasVideo ≠ new.hasVideo || old.hasScreen ≠ new.hasScreen ||
    old.audioActive ≠ new.audioActive || old.videoActive ≠ new.videoActive ||
    old.screenActive ≠ new.screenActive

/-- `sfu_receiver_snapshot_copy_set` and `sfu_fanout_bundle_copy_set`; `ok` says whether the
memory is there. -/
def copySet {V : Type} (m : SlotMap maxRemoteSlots V) (slot : ℕ) (v : Option V) (ok : Bool) :
    Option (SlotMap maxRemoteSlots V) :=
  if slot < maxRemoteSlots ∧ ok then some (m.copySet slot v) else none

/-- `sfu_receiver_snapshot_set` and `sfu_fanout_bundle_set`, on a new array. -/
def setCell {V : Type} (m : SlotMap maxRemoteSlots V) (slot : ℕ) (v : V) (ok : Bool) :
    Option (SlotMap maxRemoteSlots V) :=
  if slot < maxRemoteSlots ∧ ok then some (m.set slot (some v)) else none

/-- An entry rewritten by `f`, in the next version of the snapshot. -/
def rewriteEntry (snap : ReceiverSnapshot) (source : SessionId)
    (f : ReceiverEntry → ReceiverEntry) (ok : Bool) : Option ReceiverSnapshot :=
  (snapshotFind snap source).bind fun slot => (snap.cells slot).bind fun e =>
    copySet snap slot (some (f e)) ok

def Graph.snapshotRefreshEntry (owner source : SessionId) (ok : Bool) : Option ReceiverSnapshot :=
  rewriteEntry (g.session owner).receivers source
    (fun e => snapshotFillEntry e source (g.session source)) ok

/-- The entry of a publisher that has become a listener. -/
def ReceiverEntry.deactivated (e : ReceiverEntry) : ReceiverEntry :=
  { e with
    audioSsrc := 0, videoSsrc := 0, videoRtxSsrc := 0, screenSsrc := 0, screenRtxSsrc := 0
    audioActive := false, videoActive := false, screenActive := false }

def Graph.snapshotDeactivateEntry (owner source : SessionId) (ok : Bool) :
    Option ReceiverSnapshot :=
  rewriteEntry (g.session owner).receivers source ReceiverEntry.deactivated ok

def Graph.snapshotBuildAt (owner source : SessionId) (slot generation : ℕ)
    (ok : Bool) : Option ReceiverSnapshot :=
  let old := (g.session owner).receivers
  if (snapshotFind old source).isSome ∨ (old.cells slot).isSome then none
  else copySet old slot (some (g.newEntry source slot generation)) ok

/-- `snapshot_build_without`: the slot and generation of the entry, and the snapshot without
it. -/
def Graph.snapshotBuildWithout (owner source : SessionId) (ok : Bool) :
    Option (ℕ × ℕ) × Option ReceiverSnapshot :=
  let old := (g.session owner).receivers
  match snapshotFind old source with
  | none => (none, none)
  | some slot =>
    ((old.cells slot).map fun e => (e.remoteSlot, e.assignmentGeneration), copySet old slot none ok)

/-- The eligibility bits `fanout_route_fill_from` computes. The video runtime of the subscriber
is only set up when there is video for it. -/
def fanoutEligibility (publisher : Session) (runtime : Bool) : Eligibility :=
  let video := publisher.media.uplinkVideo.active
  let screen := publisher.media.screen.active ||
    (publisher.media.screenEnabled && publisher.media.screenSendNegotiated)
  let visual := !publisher.isAudience && (video || screen) && runtime
  ⟨publisher.media.uplinkAudio.active, visual && video, visual && screen⟩

/-- `fanout_route_fill_from`, with the subscriber's snapshot. -/
def Graph.fanoutRouteFill (publisher subscriber : SessionId)
    (subs : ReceiverSnapshot) (runtime : Bool) : Option FanoutRoute :=
  let p := g.session publisher
  (snapshotFind subs publisher).bind fun slot => (subs.cells slot).map fun e =>
    { subscriber := subscriber
      remoteSlot := e.remoteSlot
      assignmentGeneration := e.assignmentGeneration
      videoSsrc := p.media.uplinkVideo.ssrc
      videoRtxSsrc := p.media.uplinkVideo.rtxSsrc
      screenSsrc := p.media.screen.ssrc
      screenRtxSsrc := p.media.screen.rtxSsrc
      videoPt := p.media.uplinkVideo.payloadType
      videoRtxPt := p.media.uplinkVideo.rtxPayloadType
      screenPt := p.media.screen.payloadType
      screenRtxPt := p.media.screen.rtxPayloadType
      eligible := fanoutEligibility p runtime }

/-- `fanout_change_from` with `remove` false: the publisher's bundle with the route to the
subscriber rewritten, or put into the first empty cell. A null snapshot means the subscriber's
own. -/
def Graph.fanoutChangeFrom (publisher subscriber : SessionId)
    (prepared : Option ReceiverSnapshot) (runtime ok : Bool) : Option FanoutBundle :=
  let old := (g.session publisher).fanoutBundle
  ((bundleFind old subscriber).or old.firstEmpty).bind fun slot =>
    (g.fanoutRouteFill publisher subscriber
      (prepared.getD (g.session subscriber).receivers) runtime).bind fun route =>
        copySet old slot (some route) ok

/-- `fanout_change` with `remove` true. -/
def Graph.fanoutRemove (publisher subscriber : SessionId) (ok : Bool) : Option FanoutBundle :=
  let old := (g.session publisher).fanoutBundle
  (bundleFind old subscriber).bind fun slot => copySet old slot none ok

/-- `snapshot_replace`, of a snapshot that was built. -/
def Graph.snapshotReplace (owner : SessionId) (snap : Option ReceiverSnapshot) : Graph :=
  g.modify owner fun s => { s with receivers := snap.getD s.receivers }

/-- `fanout_replace`, of a bundle that was built. -/
def Graph.fanoutReplace (owner : SessionId) (bundle : Option FanoutBundle) : Graph :=
  g.modify owner fun s => { s with fanoutBundle := bundle.getD s.fanoutBundle }

structure SlotReservation where
  owner : SessionId
  slot : ℕ
  generation : ℕ
  deriving DecidableEq, Repr

/-- A slot of `owner` for `publisher`. -/
def Graph.reserveSlot (owner publisher : SessionId) : Graph × Option (ℕ × ℕ) :=
  let p := g.session publisher
  let r := remoteSlotReserve (g.session owner).remoteSlots p.userId p.peerId
  (g.modify owner fun s => { s with remoteSlots := r.1 }, r.2)

def Graph.retireSlot (owner : SessionId) (slot generation : ℕ) : Graph :=
  g.modify owner fun s =>
    { s with remoteSlots := (remoteSlotRetire s.remoteSlots slot generation).1 }

def Graph.undo (reservations : List SlotReservation) : Graph :=
  reservations.foldr (fun r g => g.retireSlot r.owner r.slot r.generation) g

/-! ### Joining -/

inductive AdmissionResult where
  | error
  | ok
  | capacity
  deriving DecidableEq, Repr

/-- What can go wrong while a peer is added: the allocations of the event, of the peer's
snapshot and bundle, per target those of the target's snapshot, the peer's entry, the target's
bundle and the peer's route, and the video runtimes; and who still accepts work at the end. -/
structure AddOutcome where
  event : Bool
  peerReceivers : Bool
  peerFanout : Bool
  targetReceivers : SessionId → Bool
  peerEntry : SessionId → Bool
  targetFanout : SessionId → Bool
  peerRoute : SessionId → Bool
  runtime : SessionId → Bool
  stillAccepts : SessionId → Bool

def AddOutcome.well : AddOutcome :=
  ⟨true, true, true, fun _ => true, fun _ => true, fun _ => true, fun _ => true, fun _ => true,
    fun _ => true⟩

def Graph.targets : List SessionId :=
  ((List.range g.room.peerCapacity).filterMap fun i =>
    if g.room.occupied i then g.room.peers i else none).filter fun other =>
      other ≠ peer && (g.session other).acceptsWork

/-- The slots reserved for a pair: the target's slot for the peer, unless the peer is a
listener, and the peer's slot for the target. -/
structure Link where
  target : SessionId
  targetSlot : Option (ℕ × ℕ)
  peerSlot : ℕ × ℕ
  deriving DecidableEq, Repr

def Graph.reservePeerSlot (peer target : SessionId)
    (targetSlot : Option (ℕ × ℕ)) : Graph × List SlotReservation × Option Link :=
  match g.reserveSlot peer target with
  | (g, none) => (g, [], none)
  | (g, some p) => (g, [⟨peer, p.1, p.2⟩], some ⟨target, targetSlot, p⟩)

def Graph.reserveLink (peer target : SessionId) : Graph × List SlotReservation × Option Link :=
  if (g.session peer).isAudience then g.reservePeerSlot peer target none
  else match g.reserveSlot target peer with
    | (g, none) => (g, [], none)
    | (g, some t) =>
      let (g, reservations, link) := g.reservePeerSlot peer target (some t)
      (g, ⟨target, t.1, t.2⟩ :: reservations, link)

/-- The slots for all targets, up to the first that fails. -/
def Graph.reserveLinks (peer : SessionId) :
    Graph → List SessionId → Graph × List SlotReservation × Option (List Link)
  | g, [] => (g, [], some [])
  | g, target :: targets =>
    match g.reserveLink peer target with
    | (g, reservations, none) => (g, reservations, none)
    | (g, reservations, some link) =>
      let (g, more, links) := Graph.reserveLinks peer g targets
      (g, reservations ++ more, links.map (link :: ·))

structure Prepared where
  target : SessionId
  receivers : Option ReceiverSnapshot
  fanoutBundle : FanoutBundle

variable (o : AddOutcome)

/-- The target's snapshot with an entry for the peer, if a slot was reserved for it. -/
def Graph.targetReceivers (link : Link) : Option (Option ReceiverSnapshot) :=
  match link.targetSlot with
  | none => some none
  | some t =>
    (g.snapshotBuildAt link.target peer t.1 t.2 (o.targetReceivers link.target)).map some

/-- The peer's bundle with the route to target number `i`, if that receives the peer. -/
def Graph.peerRoute (link : Link) (i : ℕ)
    (subs : Option ReceiverSnapshot) (fanout : FanoutBundle) : Option FanoutBundle :=
  match subs with
  | none => some fanout
  | some subs =>
    (g.fanoutRouteFill peer link.target subs (o.runtime link.target)).bind fun route =>
      setCell fanout i route (o.peerRoute link.target)

/-- What is prepared for target number `i`, with the peer's snapshot and bundle so far. -/
def Graph.prepareLink (link : Link) (i : ℕ)
    (receivers : ReceiverSnapshot) (fanout : FanoutBundle) :
    Option (ReceiverSnapshot × FanoutBundle × Prepared) := do
  let target := link.target
  let subs ← g.targetReceivers peer o link
  let entry := g.newEntry target link.peerSlot.1 link.peerSlot.2
  let receivers ← setCell receivers link.peerSlot.1 entry (o.peerEntry target)
  let targetFanout ←
    g.fanoutChangeFrom target peer (some receivers) (o.runtime peer) (o.targetFanout target)
  let fanout ← g.peerRoute peer o link i subs fanout
  return (receivers, fanout, ⟨target, subs, targetFanout⟩)

/-- The same for the targets from number `i` on. -/
def Graph.prepareLinks (g : Graph) (peer : SessionId) (o : AddOutcome) :
    List Link → ℕ → ReceiverSnapshot → FanoutBundle →
      Option (ReceiverSnapshot × FanoutBundle × List Prepared)
  | [], _, receivers, fanout => some (receivers, fanout, [])
  | link :: links, i, receivers, fanout => do
    let (receivers, fanout, prepared) ← g.prepareLink peer o link i receivers fanout
    let (receivers, fanout, rest) ← g.prepareLinks peer o links (i + 1) receivers fanout
    return (receivers, fanout, prepared :: rest)

/-- Everything that is prepared before the commit point, with the last look at who accepts
work. -/
def Graph.prepare (links : List Link) :
    Option (ReceiverSnapshot × FanoutBundle × List Prepared) :=
  if o.event ∧ o.peerReceivers ∧ o.peerFanout then
    (g.prepareLinks peer o links 0 .empty .empty).bind fun prepared =>
      if o.stillAccepts peer ∧ ∀ link ∈ links, o.stillAccepts link.target then some prepared
      else none
  else none

def Graph.publish (p : Prepared) : Graph :=
  (g.snapshotReplace p.target p.receivers).fanoutReplace p.target (some p.fanoutBundle)

/-- The peer is put into the free slot `slot`, the top of the stack. -/
def Room.seat (room : Room) (peer : SessionId) (slot : ℕ) : Room :=
  { room with
    freeSlots := room.freeSlots.tail
    peers := update room.peers slot (some peer)
    occupied := update room.occupied slot true
    peerCount := room.peerCount + 1
    membershipRevision := remoteSlotNextNonzero room.membershipRevision }

def Graph.commitPeer (slot : ℕ) (receivers : ReceiverSnapshot)
    (fanout : FanoutBundle) (prepared : List Prepared) (queue : MembershipQueue) : Graph :=
  let g := (prepared.foldl Graph.publish g).modify peer fun s =>
    { s with
      receivers := receivers, fanoutBundle := fanout
      room := some g.room.roomId, roomSlot := slot }
  { g with room := g.room.seat peer slot, queue := commitMembershipEvent queue }

/-- `room_add_peer_result`. On failure the event reservation is cancelled, but no path fails
once it was made. -/
def Graph.addPeerResult : Graph × AdmissionResult :=
  if (g.session peer).room = some g.room.roomId then (g, .error)
  else if (g.session peer).room.isSome ∨ ¬ (g.session peer).acceptsWork then (g, .error)
  else match g.room.freeSlots with
    | [] => (g, .capacity)
    | slot :: _ =>
      if g.room.peerCapacity ≤ g.room.peerCount then (g, .capacity)
      else match Graph.reserveLinks peer g (g.targets peer) with
        | (g', reservations, none) => (g'.undo reservations, .capacity)
        | (g', reservations, some links) =>
          match g'.prepare peer o links, reserveMembershipEvent g'.queue with
          | some (receivers, fanout, prepared), some queue =>
            (g'.commitPeer peer slot receivers fanout prepared queue, .ok)
          | _, _ => (g'.undo reservations, .error)

/-- The peer's slot `idx` is given back. -/
def Room.vacate (room : Room) (idx : ℕ) : Room :=
  { room with
    peers := update room.peers idx none
    occupied := update room.occupied idx false
    freeSlots := idx :: room.freeSlots
    peerCount := room.peerCount - 1
    membershipRevision := remoteSlotNextNonzero room.membershipRevision }

/-- The allocations of a removal, per remaining member. -/
structure RemoveOutcome where
  receivers : SessionId → Bool
  fanout : SessionId → Bool

def RemoveOutcome.well : RemoveOutcome := ⟨fun _ => true, fun _ => true⟩

/-- What the removal of `peer` does to a remaining member. -/
def Graph.detach (peer : SessionId) (o : RemoveOutcome) (g : Graph) (other : SessionId) : Graph :=
  let (retired, snap) := g.snapshotBuildWithout other peer (o.receivers other)
  let g := g.snapshotReplace other snap
  let g := g.fanoutReplace other (g.fanoutRemove other peer (o.fanout other))
  match retired with
  | none => g
  | some (slot, generation) => g.retireSlot other slot generation

/-- Every slot the leaving peer's snapshot names is retired. -/
def retireEntries (receivers : ReceiverSnapshot) (t : SlotTable) : SlotTable :=
  (List.range maxRemoteSlots).foldl (fun t i => match receivers.cells i with
    | none => t
    | some e => (remoteSlotRetire t e.remoteSlot e.assignmentGeneration).1) t

/-- The leaving peer: its slots retired, its snapshot and bundle empty. When the empty ones
cannot be allocated the roots are null, which reads the same. -/
def Session.leave (s : Session) : Session :=
  { s with
    remoteSlots := retireEntries s.receivers s.remoteSlots
    receivers := .empty, fanoutBundle := .empty
    room := none, roomSlot := noRoomSlot }

/-- The members of the room, as the loops over `room->peers` see them. -/
def Graph.members : List SessionId :=
  (List.range g.room.peerCapacity).filterMap g.room.peers

/-- `room_remove_peer`. The event is queued if the server takes it. -/
def Graph.removePeer (o : RemoveOutcome) : Graph :=
  let s := g.session peer
  if s.room = some g.room.roomId then
    let idx := s.roomSlot
    if g.room.peerCapacity ≤ idx ∨ g.room.occupied idx = false ∨ g.room.peers idx ≠ some peer then
      g.modify peer fun s => { s with room := none, roomSlot := noRoomSlot }
    else
      let queue := ((reserveMembershipEvent g.queue).map commitMembershipEvent).getD g.queue
      let g := { g with room := g.room.vacate idx, queue := queue }
      (g.members.foldl (Graph.detach peer o) g).modify peer Session.leave
  else g

/-! ### Role changes and refreshes -/

/-- The members other than `peer` that accept work. -/
def Graph.others : List SessionId :=
  g.members.filter fun other => other ≠ peer && (g.session other).acceptsWork

/-- A slot of every member that has no entry for `peer` yet, up to the first that fails. -/
def Graph.lazyReserve (peer : SessionId) :
    Graph → List SessionId → Graph × List SlotReservation × Bool
  | g, [] => (g, [], true)
  | g, other :: others =>
    if (snapshotFind (g.session other).receivers peer).isSome then
      Graph.lazyReserve peer g others
    else match g.reserveSlot other peer with
      | (g, none) => (g, [], false)
      | (g, some r) =>
        let (g, more, done) := Graph.lazyReserve peer g others
        (g, ⟨other, r.1, r.2⟩ :: more, done)

/-- The allocations of a role change or a refresh, per member. -/
structure RefreshOutcome where
  receivers : SessionId → Bool
  fanout : SessionId → Bool
  runtime : SessionId → Bool

def RefreshOutcome.well : RefreshOutcome := ⟨fun _ => true, fun _ => true, fun _ => true⟩

/-- The snapshot of `other` with a current entry for `peer`: rewritten, or built at the slot
that was reserved for it. -/
def Graph.snapshotCurrent (peer other : SessionId)
    (reservations : List SlotReservation) (ok : Bool) : Option ReceiverSnapshot :=
  if (snapshotFind (g.session other).receivers peer).isSome then
    g.snapshotRefreshEntry other peer ok
  else (reservations.find? (·.owner = other)).bind fun r =>
    g.snapshotBuildAt other peer r.slot r.generation ok

/-- A new snapshot of `other` and, with it, the route of `peer` to it. -/
def Graph.relink (peer other : SessionId) (snap : Option ReceiverSnapshot)
    (o : RefreshOutcome) : Graph :=
  let g := g.snapshotReplace other snap
  g.fanoutReplace peer
    (g.fanoutChangeFrom peer other snap (o.runtime other) (o.fanout other))

def Graph.relinkRole (peer : SessionId) (reservations : List SlotReservation)
    (o : RefreshOutcome) (g : Graph) (other : SessionId) : Graph :=
  g.relink peer other
    (if (g.session peer).isAudience then g.snapshotDeactivateEntry other peer (o.receivers other)
      else g.snapshotCurrent peer other reservations (o.receivers other)) o

/-- `sfu_session_recompute_video_activity_locked`. -/
def recomputeVideoActivity (isAudience : Bool) (m : Media) : Media :=
  { m with
    uplinkVideo := { m.uplinkVideo with
      active := !isAudience && m.cameraEnabled && m.videoSendNegotiated && m.cameraRtpObserved &&
        m.uplinkVideo.ssrc ≠ 0 }
    screen := { m.screen with
      active := !isAudience && m.screenEnabled && m.screenSendNegotiated && m.screenRtpObserved &&
        m.screen.ssrc ≠ 0 } }

def Media.silenced (m : Media) : Media :=
  { uplinkAudio := { m.uplinkAudio with ssrc := 0, active := false }
    uplinkVideo := { m.uplinkVideo with ssrc := 0, rtxSsrc := 0, active := false }
    screen := { m.screen with ssrc := 0, rtxSsrc := 0, active := false }
    audioSendNegotiated := false, videoSendNegotiated := false, screenSendNegotiated := false
    screenKeyframeRecoveryPending := false, cameraEnabled := false, screenEnabled := false
    cameraRtpObserved := false, screenRtpObserved := false, pttActive := false }

def Media.voiced (m : Media) : Media :=
  recomputeVideoActivity false { m with
    pttActive := false
    uplinkAudio := { m.uplinkAudio with
      active := m.uplinkAudio.ssrc ≠ 0 || m.uplinkAudio.active } }

def Graph.updatePeerRole (isAudience : Bool) (o : RefreshOutcome) : Graph × Bool :=
  if (g.session peer).room ≠ some g.room.roomId ∨ (g.session peer).isAudience = isAudience then
    (g, false)
  else
    let (g, reservations, done) :=
      if isAudience then (g, [], true) else Graph.lazyReserve peer g (g.others peer)
    if done then
      let g := g.modify peer fun s =>
        { s with
          isAudience := isAudience
          media := if isAudience then s.media.silenced else s.media.voiced }
      ((g.others peer).foldl (Graph.relinkRole peer reservations o) g, true)
    else (g.undo reservations, false)

/-- Whether `other` has to renegotiate: its entry changed, or is new. -/
def needsRenegotiation (old : ReceiverSnapshot) (snap : Option ReceiverSnapshot)
    (peer : SessionId) : Bool :=
  match snap with
  | none => false
  | some new =>
    match (snapshotFind old peer).bind old.cells, (snapshotFind new peer).bind new.cells with
    | none, _ => true
    | some e, some e' => receiverEntrySdpChanged e e'
    | some _, none => false

def Graph.relinkStreams (peer : SessionId) (publish : Bool) (reservations : List SlotReservation)
    (o : RefreshOutcome) (acc : Graph × List SessionId) (other : SessionId) :
    Graph × List SessionId :=
  let g := acc.1
  let old := (g.session other).receivers
  let snap := if (snapshotFind old peer).isSome ∨ publish then
      g.snapshotCurrent peer other reservations (o.receivers other) else none
  (g.relink peer other snap o, if needsRenegotiation old snap peer then acc.2 ++ [other] else acc.2)

/-- `room_refresh_peer_streams_locked`: the sessions to renegotiate on success. -/
def Graph.refreshPeerStreams (o : RefreshOutcome) : Graph × Option (List SessionId) :=
  let s := g.session peer
  if s.room ≠ some g.room.roomId ∨ s.acceptsWork = false ∨ g.room.peerCapacity ≤ s.roomSlot ∨
      g.room.occupied s.roomSlot = false ∨ g.room.peers s.roomSlot ≠ some peer then (g, none)
  else
    let publish := !s.isAudience || s.media.pttActive
    let (g, reservations, done) :=
      if publish then Graph.lazyReserve peer g (g.others peer) else (g, [], true)
    if done then
      let (g, renegotiate) :=
        (g.others peer).foldl (Graph.relinkStreams peer publish reservations o) (g, [])
      (g, some renegotiate)
    else (g.undo reservations, none)

/-- `room_set_peer_ptt_active`; a refresh that fails puts the media back. -/
def Graph.setPeerPttActive (active : Bool) (o : RefreshOutcome) : Graph × Option (List SessionId) :=
  let s := g.session peer
  if s.room = some g.room.roomId ∧ s.isAudience then
    let g := g.modify peer fun s =>
      { s with media := { s.media with
          pttActive := active
          uplinkAudio := { s.media.uplinkAudio with
            active := active && s.media.uplinkAudio.ssrc ≠ 0 } } }
    match g.refreshPeerStreams peer o with
    | (g, some renegotiate) => (g, some renegotiate)
    | (g, none) =>
      (g.modify peer fun t =>
        { t with media := { t.media with
            pttActive := s.media.pttActive
            uplinkAudio := { t.media.uplinkAudio with
              active := s.media.uplinkAudio.active } } }, none)
  else (g, none)

end MezonSfu.RoomGraph
