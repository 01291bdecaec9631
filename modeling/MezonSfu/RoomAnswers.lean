import MezonSfu.RoomAdmission

/-!
Applying an answer to its session: the role first, with the graph around the session, then the
video runtime, then the media.

`Negotiated` is what the graph of the session's room does not read of it. The answer is rejected
when it is not valid or not new, before anything is written, or when the runtime it needs cannot
be set up, which is known only after the role was changed.
-/

namespace MezonSfu.RoomGraph

open RemoteSlots

structure PendingAnswer where
  audioSsrc : ℕ
  videoSsrc : ℕ
  rtxSsrc : ℕ
  screenSsrc : ℕ
  screenRtxSsrc : ℕ
  peerId : ℕ
  userId : ℤ
  generation : ℕ
  videoPt : ℕ
  rtxPt : ℕ
  videoCodec : VideoCodec
  screenPt : ℕ
  screenRtxPt : ℕ
  screenCodec : VideoCodec
  screenCodecPreference : ℕ
  twccRecvExtmapId : ℕ
  twccSendExtmapId : ℕ
  midRecvExtmapId : ℕ
  audioSectionPresent : Bool
  videoSectionPresent : Bool
  screenSectionPresent : Bool
  audioSends : Bool
  videoSends : Bool
  screenSends : Bool
  isAudience : Bool
  valid : Bool

/-- `video_runtime_state`; `SFU_VIDEO_RUNTIME_INITIALIZING` is only seen inside the call that
sets it. -/
inductive VideoRuntimeState where
  | uninitialized
  | ready
  | failed
  deriving DecidableEq, Repr

/-- The fields of a session that an answer sets and the graph does not read. -/
structure Negotiated where
  appliedAnswerGeneration : ℕ
  fd : ℤ
  twccRecvExtmapId : ℕ
  twccSendExtmapId : ℕ
  midRecvExtmapId : ℕ
  screenSendNegotiatedPending : Bool
  screenCodecPreference : ℕ
  ptMap : ℕ → ℕ
  lastScreenRembBps : ℕ
  lastScreenRembTimeUs : ℕ
  videoRuntimeState : VideoRuntimeState

/-- The graph, and the fields of the session in question. -/
structure Answering where
  graph : Graph
  own : Negotiated

/-! ### The function -/

/-- `sfu_session_ensure_video_runtime`; `allocated` says whether all its parts can be. -/
def ensureVideoRuntime (n : Negotiated) (allocated : Bool) : Negotiated × Bool :=
  if n.videoRuntimeState = .ready then (n, true)
  else if allocated then ({ n with videoRuntimeState := .ready }, true)
  else ({ n with videoRuntimeState := .failed }, false)

/-- `sfu_resolve_media_ssrc`: the live stream stays, unless it is the RTX stream. -/
def resolveMediaSsrc (live liveRtx answerSsrc answerRtx : ℕ) : ℕ :=
  let rtx := if answerRtx ≠ 0 then answerRtx else liveRtx
  let ssrc := if live ≠ 0 ∧ live ≠ rtx then live else answerSsrc
  if ssrc ≠ 0 ∧ rtx ≠ 0 ∧ ssrc = rtx then
    if answerSsrc ≠ 0 ∧ answerSsrc ≠ rtx then answerSsrc else 0
  else ssrc

/-- The role of the answer is taken over; the flag is `role_diff`. -/
def Graph.takeRole (g : Graph) (peer : SessionId) (isAudience : Bool) (o : RefreshOutcome) :
    Graph × Bool :=
  let differs := (g.session peer).isAudience != isAudience
  if (g.session peer).room.isSome then
    if differs then g.updatePeerRole peer isAudience o else (g, false)
  else (g.modify peer fun s => { s with isAudience := isAudience }, differs)

/-- The directions of the sections that the answer has. -/
def Media.negotiate (m : Media) (a : PendingAnswer) : Media :=
  let newScreen := a.screenSends && !a.isAudience
  { m with
    audioSendNegotiated := if a.audioSectionPresent then a.audioSends else m.audioSendNegotiated
    videoSendNegotiated :=
      if a.videoSectionPresent then a.videoSends && !a.isAudience else m.videoSendNegotiated
    screenSendNegotiated := if a.screenSectionPresent then newScreen else m.screenSendNegotiated
    screenKeyframeRecoveryPending :=
      if a.screenSectionPresent && newScreen && !m.screenSendNegotiated then false
      else m.screenKeyframeRecoveryPending }

/-- What the directions mean for the session's own fields. -/
def Negotiated.negotiate (n : Negotiated) (m : Media) (a : PendingAnswer) : Negotiated :=
  let newScreen := a.screenSends && !a.isAudience
  let starts := a.screenSectionPresent && newScreen && !m.screenSendNegotiated
  { n with
    lastScreenRembBps := if starts then 0 else n.lastScreenRembBps
    lastScreenRembTimeUs := if starts then 0 else n.lastScreenRembTimeUs
    screenSendNegotiatedPending :=
      if a.screenSectionPresent && (newScreen || a.isAudience) then false
      else n.screenSendNegotiatedPending }

/-- The source of a camera or screen section: the streams of the answer if the section is there,
and payload types and codec if it names them. -/
def Transceiver.answered (t : Transceiver) (present sends : Bool) (ssrc rtxSsrc pt rtxPt : ℕ)
    (codec : VideoCodec) : Transceiver :=
  { t with
    ssrc := if present then
        if sends then resolveMediaSsrc t.ssrc t.rtxSsrc ssrc rtxSsrc else 0 else t.ssrc
    rtxSsrc := if present then if sends then rtxSsrc else 0 else t.rtxSsrc
    payloadType := if pt ≠ 0 then pt else t.payloadType
    rtxPayloadType := if present then if sends then rtxPt else 0 else t.rtxPayloadType
    codec := if codec ≠ .none then codec else t.codec }

/-- Whether media of a section was seen: the answer stands in for it when it names a stream. -/
def observed (isAudience present sends : Bool) (ssrc : ℕ) (before : Bool) : Bool :=
  if isAudience || (present && (!sends || ssrc = 0)) then false
  else if present && sends && ssrc ≠ 0 then true
  else before

/-- The media after the block under the media lock. -/
def Media.answered (m : Media) (isAudience : Bool) (a : PendingAnswer) : Media :=
  let audioSsrc :=
    if a.audioSectionPresent then if a.audioSends then a.audioSsrc else 0 else m.uplinkAudio.ssrc
  let video := m.uplinkVideo.answered a.videoSectionPresent a.videoSends a.videoSsrc a.rtxSsrc
    a.videoPt a.rtxPt a.videoCodec
  let screen := m.screen.answered a.screenSectionPresent a.screenSends a.screenSsrc
    a.screenRtxSsrc a.screenPt a.screenRtxPt a.screenCodec
  recomputeVideoActivity isAudience { m with
    cameraRtpObserved := observed isAudience a.videoSectionPresent a.videoSends video.ssrc
      m.cameraRtpObserved
    screenRtpObserved := observed isAudience a.screenSectionPresent a.screenSends screen.ssrc
      m.screenRtpObserved
    uplinkAudio := { m.uplinkAudio with
      ssrc := audioSsrc
      active := audioSsrc ≠ 0 && (!isAudience || m.pttActive) }
    uplinkVideo := video
    screen := screen }

/-- The comparisons of `media_changed`. They cover every field of a transceiver that the answer
can change. -/
def Media.sourcesDiffer (m m' : Media) : Bool :=
  m.uplinkAudio ≠ m'.uplinkAudio || m.uplinkVideo ≠ m'.uplinkVideo || m.screen ≠ m'.screen

def Session.answered (s : Session) (a : PendingAnswer) : Session :=
  { s with
    media := (s.media.negotiate a).answered s.isAudience a
    peerId := if a.peerId ≠ 0 then a.peerId else s.peerId
    userId := a.userId }

def Negotiated.answered (n : Negotiated) (m : Media) (a : PendingAnswer) (fd : ℤ) : Negotiated :=
  { n.negotiate m a with
    appliedAnswerGeneration := a.generation
    fd := fd
    twccRecvExtmapId := a.twccRecvExtmapId
    twccSendExtmapId := a.twccSendExtmapId
    midRecvExtmapId := a.midRecvExtmapId
    screenCodecPreference := a.screenCodecPreference
    ptMap := fun i => i }

/-- The answer lets the session send camera or screen. -/
def PendingAnswer.sendsVideo (a : PendingAnswer) : Bool :=
  (a.videoSends || a.screenSends) && !a.isAudience

/-- `sfu_session_apply_pending_answer`: `role_changed` and `media_changed` when it returns true. -/
def Answering.applyPendingAnswer (w : Answering) (peer : SessionId) (a : PendingAnswer) (fd : ℤ)
    (o : RefreshOutcome) (allocated : Bool) : Answering × Option (Bool × Bool) :=
  if a.valid = false ∨ a.generation ≤ w.own.appliedAnswerGeneration then (w, none)
  else
    let (g, roleDiff) := w.graph.takeRole peer a.isAudience o
    let (own, ready) := if a.sendsVideo then ensureVideoRuntime w.own allocated else (w.own, true)
    if ready then
      let s := g.session peer
      (⟨g.modify peer fun s => s.answered a, own.answered s.media a fd⟩,
        some (roleDiff, (s.media.negotiate a).sourcesDiffer (s.answered a).media))
    else (⟨g, own⟩, none)

/-! ### What a rejected answer leaves -/

/-- A graph in which slots can be reserved and given back. -/
structure Settled (g : Graph) : Prop where
  coherent : Coherent g
  slots : ∀ p, SlotsOk (g.session p).remoteSlots
  spare : ∀ p, (g.session p).remoteSlots.nextAssignmentGeneration + roomMaxPeers < 2 ^ 64

/-- Nothing changed but the state of the video runtime and the counters of slots that were taken
and given back. -/
structure Untouched (w w' : Answering) : Prop where
  own : w'.own = { w.own with videoRuntimeState := w'.own.videoRuntimeState }
  graph : OnlySlots w.graph w'.graph
  slots : Settled w.graph → ∀ p,
    Restored (w.graph.session p).remoteSlots (w'.graph.session p).remoteSlots

/-- The table has a slot for the publisher, or one to give. -/
def SlotTable.Takes (t : SlotTable) (userId : ℤ) (peerId : ℕ) : Prop :=
  peerId ≠ 0 ∧ ((t.existingSlot userId peerId).isSome ∨ t.freeSlot.isSome)

def Graph.Receptive (g : Graph) (peer other : SessionId) : Prop :=
  (snapshotFind (g.session other).receivers peer).isSome ∨
    SlotTable.Takes (g.session other).remoteSlots (g.session peer).userId (g.session peer).peerId

/-- The session may become a speaker: it is in no room, or every member that accepts work has an
entry or a slot for it. -/
def Graph.Promotable (g : Graph) (peer : SessionId) : Prop :=
  (g.session peer).isAudience = true ∧ ((g.session peer).room = none ∨ (g.Member peer ∧
    ∀ other ∈ g.others peer, g.Receptive peer other))

/-- The answer is new, but the runtime it needs is not there and cannot be set up. -/
def Answering.LacksRuntime (w : Answering) (a : PendingAnswer) (allocated : Bool) : Prop :=
  a.valid = true ∧ w.own.appliedAnswerGeneration < a.generation ∧ a.sendsVideo = true ∧
    w.own.videoRuntimeState ≠ .ready ∧ allocated = false

lemma reserve_isSome_iff {t : SlotTable} {u : ℤ} {p : ℕ} :
    (remoteSlotReserve t u p).2.isSome ↔ SlotTable.Takes t u p := by
  unfold remoteSlotReserve SlotTable.Takes
  by_cases hp : p = 0
  · rw [if_pos hp]
    exact ⟨nofun, fun h => absurd hp h.1⟩
  rw [if_neg hp]
  cases he : t.existingSlot u p with
  | some i => exact ⟨fun _ => ⟨hp, .inl rfl⟩, fun _ => rfl⟩
  | none =>
    cases hf : t.freeSlot with
    | some i => exact ⟨fun _ => ⟨hp, .inr rfl⟩, fun _ => rfl⟩
    | none => exact ⟨nofun, fun h => h.2.elim id id⟩

lemma takes_reserve {t : SlotTable} {u : ℤ} {p : ℕ} (h : SlotTable.Takes t u p) :
    SlotTable.Takes (remoteSlotReserve t u p).1 u p := by
  refine ⟨h.1, .inl ?_⟩
  unfold remoteSlotReserve
  rw [if_neg h.1]
  cases he : t.existingSlot u p with
  | some i =>
    rw [he]
    rfl
  | none =>
    cases hf : t.freeSlot with
    | none =>
      obtain ⟨-, hslot⟩ := h
      rw [he, hf] at hslot
      exact hslot.elim nofun nofun
    | some i =>
      refine List.find?_isSome.2 ⟨i, List.mem_of_find?_eq_some hf, ?_⟩
      change RemoteSlot.carries (Function.update t.slots i _ i) u p
      simp [RemoteSlot.carries]

section

variable {g : Graph} {peer : SessionId}

lemma receptive_reserveSlot {other o : SessionId} (h : (g.reserveSlot other peer).2.isSome) :
    (g.reserveSlot other peer).1.Receptive peer o ↔ g.Receptive peer o := by
  unfold Graph.Receptive
  rw [reserveSlot_field Session.receivers,
    reserveSlot_field Session.userId,
    reserveSlot_field Session.peerId]
  by_cases ho : o = other
  · subst ho
    have htakes := reserve_isSome_iff.1 h
    rw [reserveSlot_self]
    exact ⟨fun _ => .inr htakes, fun _ => .inr (takes_reserve htakes)⟩
  · rw [reserveSlot_of_ne ho]

lemma lazyReserve_done_iff (others : List SessionId) :
    (Graph.lazyReserve peer g others).2.2 ↔ ∀ o ∈ others, g.Receptive peer o := by
  induction others generalizing g with
  | nil => exact ⟨fun _ => List.forall_mem_nil _, fun _ => rfl⟩
  | cons other others ih =>
    rw [List.forall_mem_cons]
    unfold Graph.lazyReserve
    split
    · rename_i hfind
      rw [ih]
      exact ⟨fun h => ⟨.inl hfind, h⟩, And.right⟩
    rename_i hfind
    have hiff : g.Receptive peer other ↔ (g.reserveSlot other peer).2.isSome :=
      (or_iff_right hfind).trans reserve_isSome_iff.symm
    rw [hiff]
    have hkeep := @receptive_reserveSlot g peer other
    generalize g.reserveSlot other peer = result at hkeep ⊢
    obtain ⟨g', _ | r⟩ := result
    · simp
    · rw [ih]
      exact ⟨fun h => ⟨rfl, fun o ho => (hkeep rfl).1 (h o ho)⟩,
        fun h o ho => (hkeep rfl).2 (h.2 o ho)⟩

lemma onlySlots_lazyReserve (others : List SessionId) :
    OnlySlots g (Graph.lazyReserve peer g others).1 := by
  induction others generalizing g with
  | nil => exact .refl g
  | cons other others ih =>
    unfold Graph.lazyReserve
    split
    · exact ih
    have hone := onlySlots_reserveSlot g other peer
    generalize g.reserveSlot other peer = result at hone ⊢
    obtain ⟨g', _ | r⟩ := result
    · exact hone
    · exact hone.trans ih

lemma foldl_relinkRole_isAudience (rs : List SlotReservation) (o : RefreshOutcome)
    (os : List SessionId) (q : SessionId) :
    ((os.foldl (Graph.relinkRole peer rs o) g).session q).isAudience =
      (g.session q).isAudience := by
  induction os generalizing g with
  | nil => rfl
  | cons other os ih =>
    rw [List.foldl_cons, ih]
    exact relink_field Session.isAudience

/-- **A listener becomes a speaker** if every member can take it. -/
lemma updatePeerRole_promoted (hm : g.Member peer) (ha : (g.session peer).isAudience)
    (hall : ∀ other ∈ g.others peer, g.Receptive peer other) (o : RefreshOutcome) :
    ((g.updatePeerRole peer false o).1.session peer).isAudience = false := by
  have hdone := (lazyReserve_done_iff (g.others peer)).2 hall
  unfold Graph.updatePeerRole
  rw [if_neg (by rw [ha]; exact fun h => h.elim (fun hne => hne hm) nofun),
    if_neg Bool.false_ne_true]
  generalize Graph.lazyReserve peer g (g.others peer) = result at hdone ⊢
  dsimp only at hdone ⊢
  rw [if_pos hdone, foldl_relinkRole_isAudience, modify_self]

/-- A listener that some member cannot take stays one, and the slots are given back. -/
lemma updatePeerRole_refused (hm : g.Member peer) (ha : (g.session peer).isAudience)
    (hall : ¬ ∀ other ∈ g.others peer, g.Receptive peer other) (o : RefreshOutcome) :
    let r := Graph.lazyReserve peer g (g.others peer)
    g.updatePeerRole peer false o = (r.1.undo r.2.1, false) := by
  have hdone := mt (lazyReserve_done_iff (g.others peer)).1 hall
  unfold Graph.updatePeerRole
  rw [if_neg (by rw [ha]; exact fun h => h.elim (fun hne => hne hm) nofun),
    if_neg Bool.false_ne_true]
  generalize Graph.lazyReserve peer g (g.others peer) = result at hdone ⊢
  obtain ⟨h, rs, done⟩ := result
  dsimp only at hdone ⊢
  rw [if_neg hdone]

lemma takeRole_promoted (h : g.Promotable peer) (o : RefreshOutcome) :
    ((g.takeRole peer false o).1.session peer).isAudience = false := by
  obtain ⟨ha, hroom | ⟨hm, hall⟩⟩ := h
  · unfold Graph.takeRole
    rw [hroom, if_neg nofun, modify_self]
  · unfold Graph.takeRole
    rw [hm, Option.isSome_some, if_pos rfl, ha, Bool.bne_false, if_pos rfl]
    exact updatePeerRole_promoted hm ha hall o

/-- The graph stays as it is, but for slots that were taken and given back. -/
lemma takeRole_kept (h : ¬ g.Promotable peer) (o : RefreshOutcome) :
    OnlySlots g (g.takeRole peer false o).1 ∧ (Settled g → ∀ p,
      Restored (g.session p).remoteSlots ((g.takeRole peer false o).1.session p).remoteSlots) := by
  have hrefl : OnlySlots g g ∧ (Settled g → ∀ p,
      Restored (g.session p).remoteSlots (g.session p).remoteSlots) :=
    ⟨.refl g, fun _ _ => undoing_restored.refl _⟩
  unfold Graph.takeRole
  cases ha : (g.session peer).isAudience with
  | false =>
    split
    · exact hrefl
    · rw [modify_id]
      · exact hrefl
      · rw [← ha]
  | true =>
    cases hroom : (g.session peer).room with
    | none => exact absurd ⟨ha, .inl hroom⟩ h
    | some room =>
      rw [Option.isSome_some, if_pos rfl, Bool.bne_false, if_pos rfl]
      by_cases hm : g.Member peer
      · have hall : ¬ ∀ other ∈ g.others peer, g.Receptive peer other :=
          fun hall => h ⟨ha, .inr ⟨hm, hall⟩⟩
        rw [updatePeerRole_refused hm ha hall]
        refine ⟨(onlySlots_lazyReserve _).trans (onlySlots_undo _), fun hs p => ?_⟩
        have hle := hs.coherent.seated.length_others_le peer
        obtain ⟨-, -, hsession⟩ := alike_undo_lazy undoing_restored
          hs.coherent.seated.others_nodup (hs.coherent.vacant_others hm)
          fun q => ⟨hs.slots q, by have := hs.spare q; omega⟩
        obtain ⟨t, ht, hp⟩ := hsession p
        rw [hp]
        exact ht
      · unfold Graph.updatePeerRole
        rw [if_pos (.inl hm)]
        exact hrefl

end

lemma untouched_refl (w : Answering) : Untouched w w :=
  ⟨rfl, .refl _, fun _ _ => undoing_restored.refl _⟩

/-- **A rejected answer changes nothing**, except when the runtime is missing and the role of the
answer can be taken over: then the session has become a speaker. -/
theorem rejected_answer_untouched_iff (w : Answering) (peer : SessionId) (a : PendingAnswer)
    (fd : ℤ) (o : RefreshOutcome) (allocated : Bool) :
    ((w.applyPendingAnswer peer a fd o allocated).2 = none →
        Untouched w (w.applyPendingAnswer peer a fd o allocated).1) ↔
      ¬ (w.LacksRuntime a allocated ∧ w.graph.Promotable peer) := by
  unfold Answering.applyPendingAnswer
  by_cases hstale : a.valid = false ∨ a.generation ≤ w.own.appliedAnswerGeneration
  · rw [if_pos hstale]
    refine ⟨fun _ hlacks => ?_, fun _ _ => untouched_refl w⟩
    obtain ⟨⟨hvalid, hnew, -⟩, -⟩ := hlacks
    rcases hstale with hinvalid | hle
    · rw [hvalid] at hinvalid
      cases hinvalid
    · omega
  · rw [if_neg hstale]
    obtain ⟨hvalid, hnew⟩ := not_or.1 hstale
    by_cases hlacks : a.sendsVideo = true ∧ w.own.videoRuntimeState ≠ .ready ∧ allocated = false
    · obtain ⟨hsends, hruntime, hallocated⟩ := hlacks
      have haudience : a.isAudience = false := by
        unfold PendingAnswer.sendsVideo at hsends
        rw [Bool.and_eq_true, Bool.not_eq_true'] at hsends
        exact hsends.2
      have hens : ensureVideoRuntime w.own allocated =
          ({ w.own with videoRuntimeState := .failed }, false) := by
        unfold ensureVideoRuntime
        rw [if_neg hruntime, hallocated, if_neg Bool.false_ne_true]
      rw [hsends, if_pos rfl, hens, haudience]
      dsimp only
      rw [if_neg Bool.false_ne_true]
      constructor
      · rintro huntouched ⟨-, hprom⟩
        -- the session was a listener and is a speaker now
        have hkept := (huntouched rfl).graph.field Session.isAudience (q := peer)
        rw [takeRole_promoted hprom, hprom.1] at hkept
        cases hkept
      · intro hnot _
        have hprom : ¬ w.graph.Promotable peer := fun hprom => hnot
          ⟨⟨by simpa using hvalid, by omega, hsends, hruntime, hallocated⟩, hprom⟩
        obtain ⟨honly, hslots⟩ := takeRole_kept hprom o
        exact ⟨rfl, honly, hslots⟩
    · have hready : (if a.sendsVideo then ensureVideoRuntime w.own allocated
          else (w.own, true)).2 = true := by
        unfold ensureVideoRuntime
        split_ifs with h1 h2 h3
        · rfl
        · rfl
        · exact absurd ⟨h1, h2, by simpa using h3⟩ hlacks
        · rfl
      dsimp only
      rw [if_pos hready]
      exact ⟨fun _ h => hlacks ⟨h.1.2.2.1, h.1.2.2.2.1, h.1.2.2.2.2⟩, fun _ => nofun⟩

def cameraAnswer : PendingAnswer where
  audioSsrc := 0
  videoSsrc := 5
  rtxSsrc := 6
  screenSsrc := 0
  screenRtxSsrc := 0
  peerId := 0
  userId := 3
  generation := 1
  videoPt := 96
  rtxPt := 97
  videoCodec := .vp9
  screenPt := 0
  screenRtxPt := 0
  screenCodec := .none
  screenCodecPreference := 0
  twccRecvExtmapId := 3
  twccSendExtmapId := 3
  midRecvExtmapId := 4
  audioSectionPresent := false
  videoSectionPresent := true
  screenSectionPresent := false
  audioSends := false
  videoSends := true
  screenSends := false
  isAudience := false
  valid := true

/-- A room with the speaker 1 and the listener 3, before the first answer of either. -/
def twoMembers : Answering :=
  ⟨((newRoom.addPeerResult 1 .well).1.addPeerResult 3 .well).1,
    ⟨0, -1, 0, 0, 0, false, 0, fun i => i, 0, 0, .uninitialized⟩⟩

/-- The speaker's answer is rejected for want of the runtime, and nothing changes. -/
theorem rejected_answer_untouched_speaker :
    (twoMembers.applyPendingAnswer 1 cameraAnswer 20 .well false).2 = none ∧
      Untouched twoMembers (twoMembers.applyPendingAnswer 1 cameraAnswer 20 .well false).1 := by
  have hrejected : (twoMembers.applyPendingAnswer 1 cameraAnswer 20 .well false).2 = none := by
    decide +kernel
  refine ⟨hrejected, (rejected_answer_untouched_iff ..).2 ?_ hrejected⟩
  rintro ⟨-, haudience, -⟩
  cases haudience

/-- The listener's answer is rejected in the same way, but the listener has become a speaker and
the other member has an entry for it. -/
theorem rejected_answer_promotes :
    let w := (twoMembers.applyPendingAnswer 3 cameraAnswer 20 .well false).1
    (twoMembers.applyPendingAnswer 3 cameraAnswer 20 .well false).2 = none ∧
      (twoMembers.graph.session 3).isAudience = true ∧ (w.graph.session 3).isAudience = false ∧
      snapshotFind (twoMembers.graph.session 1).receivers 3 = none ∧
      (snapshotFind (w.graph.session 1).receivers 3).isSome = true := by
  decide +kernel

end MezonSfu.RoomGraph
