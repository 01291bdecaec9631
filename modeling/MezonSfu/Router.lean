import MezonSfu.Fanout
import MezonSfu.RemoteSlots

/-!
Forwarding a packet to the routes of its publisher's bundle.

Targets of the worker itself are handed to its egress path at once. The others are gathered in one
builder for each worker, which is sent as a batch when it is full and at the end. Whether a copy
and the handing over of a batch succeed are inputs. Only references of the packet and of its copy
are counted.
-/

namespace MezonSfu.Router

open Svc Fanout Function List
open RemoteSlots (maxRemoteSlots)

def batchCap : ℕ := 16
def ownerNone : ℕ := 65535

/-- What the router reads of a subscriber's session. -/
structure Peer where
  established : Bool
  acceptsWork : Bool
  visible : Bool
  owner : ℕ
  addr : ℕ
  appliedGeneration : ℕ → ℕ

def Peer.authorized (p : Peer) (slot generation : ℕ) : Bool :=
  decide (slot < maxRemoteSlots) && generation != 0 && p.appliedGeneration slot == generation

/-- The worker that forwards; without a mesh it is the only one. -/
structure Worker where
  index : ℕ
  mesh : Option ℕ

def Worker.workerCount (w : Worker) : ℕ := w.mesh.getD 1

/-- `sfu_ingress_media_t`, with the publisher. -/
structure Media where
  publisher : ℕ
  source : MediaKind
  isAudio : Bool
  hasSvc : Bool
  isKeyframe : Bool
  svc : Descriptor
deriving DecidableEq

def Media.kind (m : Media) : MediaKind :=
  if m.isAudio then .audio else if m.source = .screen then .screen else .video

structure Target where
  subscriber : ℕ
  dst : ℕ
  videoSsrc : UInt32
  videoRtxSsrc : UInt32
  assignmentGeneration : ℕ
  remoteSlot : ℕ
  videoPt : ℕ
  videoRtxPt : ℕ
  source : MediaKind
  hasVideo : Bool
deriving DecidableEq

structure Batch where
  dst : ℕ
  publisher : Option ℕ
  targets : List Target
  isAudio : Bool
  svc : Option Descriptor
  isKeyframe : Bool
deriving DecidableEq

/-- The outcomes of the packet's copy, by attempt, and of the handing over, by batch. -/
structure Outcome where
  copied : ℕ → Bool
  enqueued : ℕ → Bool

/-- The state of one call: the builders, the references of the copy once it is made, what was
handed out, and how often a copy and a batch were tried. -/
structure State where
  builders : ℕ → List Target
  remoteSource : Option ℕ
  egress : List Target
  batches : List Batch
  copies : ℕ
  sends : ℕ

def State.init : State := ⟨fun _ => [], none, [], [], 0, 0⟩

def State.ensureRemoteSource (s : State) (o : Outcome) : State × Bool :=
  match s.remoteSource with
  | some _ => (s, true)
  | none =>
    if o.copied s.copies then ({ s with remoteSource := some 1, copies := s.copies + 1 }, true)
    else ({ s with copies := s.copies + 1 }, false)

def State.clear (s : State) (dst : ℕ) : State := { s with builders := update s.builders dst [] }

def batchOf (m : Media) (dst : ℕ) (targets : List Target) : Batch :=
  { dst := dst
    publisher := if m.isAudio then none else some m.publisher
    targets := targets
    isAudio := m.isAudio
    svc := if m.hasSvc then some m.svc else none
    isKeyframe := m.isKeyframe }

def State.flushRemoteBatch (s : State) (m : Media) (o : Outcome) (dst : ℕ) : State :=
  if s.builders dst = [] then s
  else
    let r := s.ensureRemoteSource o
    if !r.2 then r.1.clear dst
    else
      -- the batch takes a reference with it; one that is not taken is released
      let s :=
        if o.enqueued r.1.sends then
          { r.1 with
            remoteSource := r.1.remoteSource.map (· + 1)
            batches := r.1.batches ++ [batchOf m dst (s.builders dst)]
            sends := r.1.sends + 1 }
        else { r.1 with sends := r.1.sends + 1 }
      s.clear dst

def target (m : Media) (p : Peer) (subscriber : ℕ) (r : Route) : Target :=
  let base : Target :=
    { subscriber := subscriber, dst := p.addr, videoSsrc := 0, videoRtxSsrc := 0,
      assignmentGeneration := r.assignmentGeneration, remoteSlot := r.remoteSlot, videoPt := 0,
      videoRtxPt := 0, source := m.source, hasVideo := false }
  match m.kind with
  | .audio => base
  | .screen =>
    { base with
      videoSsrc := r.screenSsrc, videoRtxSsrc := r.screenRtxSsrc, videoPt := r.screenPt,
      videoRtxPt := r.screenRtxPt, hasVideo := true }
  | _ =>
    { base with
      videoSsrc := r.videoSsrc, videoRtxSsrc := r.videoRtxSsrc, videoPt := r.videoPt,
      videoRtxPt := r.videoRtxPt, hasVideo := true }

/-- `route_target`, for a subscriber whose slot is authorized. -/
def State.routeTarget (s : State) (w : Worker) (m : Media) (o : Outcome) (p : Peer)
    (t : Target) : State :=
  if !p.established || !p.acceptsWork then s
  else if !m.isAudio && !p.visible then s
  else if p.owner = w.index then { s with egress := s.egress ++ [t] }
  else if p.owner = ownerNone ∨ w.workerCount ≤ p.owner then s
  else
    let s := if (s.builders p.owner).length = batchCap then s.flushRemoteBatch m o p.owner else s
    { s with builders := update s.builders p.owner (s.builders p.owner ++ [t]) }

def State.routeEntry (s : State) (w : Worker) (m : Media) (o : Outcome) (peers : ℕ → Peer)
    (r : Route) : State :=
  match r.subscriber with
  | none => s
  | some sub =>
    if !(peers sub).authorized r.remoteSlot r.assignmentGeneration then s
    else s.routeTarget w m o (peers sub) (target m (peers sub) sub r)

/-- What a call leaves: the packets handed to egress, the batches, the references of the copy, and
those of the packet. -/
structure Forwarded where
  egress : List Target
  batches : List Batch
  copyRefs : Option ℕ
  packetRefs : ℕ

/-- `sfu_router_forward` of a packet with this many references. -/
def forward (w : Worker) (m : Media) (bundle : Option Bundle) (peers : ℕ → Peer) (o : Outcome)
    (packetRefs : ℕ) : Forwarded :=
  let routed := (Bundle.iterate bundle m.kind).foldl
    (fun s r => s.routeEntry w m o peers r.1) State.init
  let flushed := (List.range w.workerCount).foldl
    (fun s dst => if dst ≠ w.index then s.flushRemoteBatch m o dst else s) routed
  { egress := flushed.egress
    batches := flushed.batches
    copyRefs := flushed.remoteSource.map (· - 1)
    packetRefs := packetRefs - 1 }

/-- The target of a route whose subscriber is to get the packet, with the subscriber's owner. -/
def eligible (m : Media) (peers : ℕ → Peer) (r : Route) : Option (ℕ × Target) :=
  match r.subscriber with
  | none => none
  | some sub =>
    let p := peers sub
    if p.authorized r.remoteSlot r.assignmentGeneration && p.established && p.acceptsWork &&
        (m.isAudio || p.visible) then
      some (p.owner, target m p sub r)
    else none

/-- The targets of all routes of the packet's kind that are to be reached. -/
def reached (m : Media) (bundle : Option Bundle) (peers : ℕ → Peer) : List (ℕ × Target) :=
  (Bundle.routes bundle m.kind).filterMap fun r => eligible m peers r.1

def ownedBy (l : List (ℕ × Target)) (owner : ℕ) : List Target :=
  (l.filter fun x => x.1 = owner).map Prod.snd

/-- Another worker that a batch can be sent to. -/
def Worker.Remote (w : Worker) (owner : ℕ) : Prop :=
  owner ≠ w.index ∧ owner ≠ ownerNone ∧ owner < w.workerCount

instance (w : Worker) (owner : ℕ) : Decidable (w.Remote owner) := by
  unfold Worker.Remote
  exact inferInstance

def sentTo (batches : List Batch) (dst : ℕ) : List Target :=
  (batches.filter fun b => b.dst = dst).flatMap Batch.targets

lemma ownedBy_append (l : List (ℕ × Target)) (x : ℕ × Target) (owner : ℕ) :
    ownedBy (l ++ [x]) owner = ownedBy l owner ++ if x.1 = owner then [x.2] else [] := by
  unfold ownedBy
  by_cases h : x.1 = owner <;> simp [h]

lemma sentTo_append (l : List Batch) (b : Batch) (dst : ℕ) :
    sentTo (l ++ [b]) dst = sentTo l dst ++ if b.dst = dst then b.targets else [] := by
  unfold sentTo
  by_cases h : b.dst = dst <;> simp [h]

/-! ### The invariant of a call -/

/-- `done` are the targets met so far. Every one is with its owner: at egress, in a batch, or in the
builder. -/
structure Good (w : Worker) (done : List (ℕ × Target)) (s : State) : Prop where
  here : s.egress = ownedBy done w.index
  remote : ∀ dst, w.Remote dst → sentTo s.batches dst ++ s.builders dst = ownedBy done dst
  idle : ∀ dst, ¬ w.Remote dst → s.builders dst = []
  cap : ∀ dst, (s.builders dst).length ≤ batchCap
  batch : ∀ b ∈ s.batches, w.Remote b.dst ∧ b.targets ≠ [] ∧ b.targets.length ≤ batchCap
  copy : s.remoteSource = none ∧ s.batches = [] ∨ s.remoteSource = some (s.batches.length + 1)

lemma good_init (w : Worker) : Good w [] State.init where
  here := rfl
  remote _ _ := rfl
  idle _ _ := rfl
  cap _ := Nat.zero_le _
  batch _ hb := by cases hb
  copy := .inl ⟨rfl, rfl⟩

section

variable {w : Worker} {done : List (ℕ × Target)} {s : State} {m : Media} {o : Outcome}

lemma ensureRemoteSource_spec (hcopied : ∀ n, o.copied n)
    (h : s.remoteSource = none ∧ s.batches = [] ∨ s.remoteSource = some (s.batches.length + 1)) :
    let r := s.ensureRemoteSource o
    r.2 ∧ r.1.remoteSource = some (s.batches.length + 1) ∧ r.1.builders = s.builders ∧
      r.1.egress = s.egress ∧ r.1.batches = s.batches := by
  unfold State.ensureRemoteSource
  rcases h with ⟨hnone, hnil⟩ | hsome
  · rw [hnone]
    rw [if_pos (hcopied _)]
    refine ⟨rfl, ?_, rfl, rfl, rfl⟩
    rw [hnil]
    rfl
  · rw [hsome]
    exact ⟨rfl, hsome, rfl, rfl, rfl⟩

section

variable (h : Good w done s)

include h

/-- **A flush** moves a builder into a batch. -/
lemma Good.flush (hcopied : ∀ n, o.copied n)
    (henqueued : ∀ n, o.enqueued n) {dst : ℕ} (hdst : w.Remote dst) :
    Good w done (s.flushRemoteBatch m o dst) ∧
      (s.flushRemoteBatch m o dst).builders = update s.builders dst [] := by
  unfold State.flushRemoteBatch
  split_ifs with hempty
  · refine ⟨h, ?_⟩
    rw [← hempty, update_eq_self]
  obtain ⟨hok, hsource, hbuilders, hegress, hbatches⟩ := ensureRemoteSource_spec hcopied h.copy
  dsimp only
  rw [hok]
  simp only [Bool.not_true, Bool.false_eq_true, if_false]
  rw [if_pos (henqueued _)]
  unfold State.clear
  rw [hsource, hbuilders, hegress, hbatches]
  have htargets : (batchOf m dst (s.builders dst)).targets = s.builders dst := rfl
  have hto : (batchOf m dst (s.builders dst)).dst = dst := rfl
  refine ⟨⟨h.here, ?_, ?_, ?_, ?_, ?_⟩, rfl⟩
  · intro d hd
    dsimp only
    rw [sentTo_append, hto, htargets]
    by_cases heq : dst = d
    · subst heq
      rw [if_pos rfl, update_self, append_nil]
      exact h.remote dst hd
    · rw [if_neg heq, append_nil, update_of_ne (Ne.symm heq)]
      exact h.remote d hd
  · intro d hd
    dsimp only
    by_cases heq : d = dst
    · rw [heq, update_self]
    · rw [update_of_ne heq]
      exact h.idle d hd
  · intro d
    dsimp only
    by_cases heq : d = dst
    · rw [heq, update_self]
      exact Nat.zero_le _
    · rw [update_of_ne heq]
      exact h.cap d
  · exact forall_mem_append.2 ⟨h.batch, forall_mem_singleton.2 ⟨hdst, hempty, h.cap dst⟩⟩
  · right
    rw [Option.map_some, length_append, length_singleton]

lemma Good.egress (t : Target) :
    Good w (done ++ [(w.index, t)]) { s with egress := s.egress ++ [t] } := by
  refine { h with here := ?_, remote := ?_ }
  · rw [ownedBy_append, if_pos rfl, h.here]
  · intro dst hdst
    rw [ownedBy_append, if_neg (Ne.symm hdst.1), append_nil]
    exact h.remote dst hdst

lemma Good.skip {owner : ℕ} (hlocal : owner ≠ w.index)
    (hremote : ¬ w.Remote owner) (t : Target) : Good w (done ++ [(owner, t)]) s := by
  refine { h with here := ?_, remote := ?_ }
  · rw [ownedBy_append, if_neg hlocal, append_nil]
    exact h.here
  intro dst hdst
  rw [ownedBy_append, if_neg, append_nil]
  · exact h.remote dst hdst
  · rintro rfl
    exact hremote hdst

lemma Good.push {owner : ℕ} (hremote : w.Remote owner)
    (hroom : (s.builders owner).length < batchCap) (t : Target) :
    Good w (done ++ [(owner, t)])
      { s with builders := update s.builders owner (s.builders owner ++ [t]) } := by
  refine ⟨?_, ?_, ?_, ?_, h.batch, h.copy⟩
  · rw [ownedBy_append, if_neg hremote.1, append_nil]
    exact h.here
  · intro dst hdst
    dsimp only
    rw [ownedBy_append, ← h.remote dst hdst]
    by_cases heq : owner = dst
    · rw [heq, if_pos rfl, update_self, append_assoc]
    · rw [if_neg heq, update_of_ne (Ne.symm heq), append_nil]
  · intro dst hdst
    dsimp only
    rw [update_of_ne]
    · exact h.idle dst hdst
    · rintro rfl
      exact hdst hremote
  · intro dst
    dsimp only
    by_cases heq : dst = owner
    · rw [heq, update_self, length_append, length_singleton]
      exact hroom
    · rw [update_of_ne heq]
      exact h.cap dst

/-- **One pass of the loop.** -/
lemma Good.routeEntry (hcopied : ∀ n, o.copied n) (henqueued : ∀ n, o.enqueued n) (peers : ℕ → Peer)
    (r : Route) : Good w (done ++ (eligible m peers r).toList) (s.routeEntry w m o peers r) := by
  unfold State.routeEntry eligible
  cases r.subscriber with
  | none => simpa using h
  | some sub =>
    dsimp only
    cases hauth : (peers sub).authorized r.remoteSlot r.assignmentGeneration with
    | false => simpa using h
    | true =>
      generalize peers sub = p at *
      unfold State.routeTarget
      cases hest : p.established with
      | false => simpa using h
      | true =>
        cases hacc : p.acceptsWork with
        | false => simpa using h
        | true =>
          cases hvis : m.isAudio || p.visible with
          | false =>
            have hhidden : (!m.isAudio && !p.visible) := by
              rw [← Bool.not_or, hvis]
              rfl
            simpa [hhidden] using h
          | true =>
            have hseen : (!m.isAudio && !p.visible) = false := by
              rw [← Bool.not_or, hvis]
              rfl
            simp only [hseen, Bool.not_true, Bool.or_self, Bool.false_eq_true, if_false,
              Bool.and_self, if_true, Option.toList_some]
            split_ifs with hlocal hnone hfull
            · rw [hlocal]
              exact h.egress _
            · refine h.skip hlocal ?_ _
              rintro ⟨-, hne, hlt⟩
              rcases hnone with hnone | hnone
              · exact hne hnone
              · exact absurd hlt (not_lt.2 hnone)
            · have hremote : w.Remote p.owner := by
                rw [not_or, not_le] at hnone
                exact ⟨hlocal, hnone.1, hnone.2⟩
              obtain ⟨hflush, hbuilders⟩ := h.flush (m := m) hcopied henqueued hremote
              refine hflush.push hremote ?_ _
              rw [hbuilders, update_self]
              decide
            · have hremote : w.Remote p.owner := by
                rw [not_or, not_le] at hnone
                exact ⟨hlocal, hnone.1, hnone.2⟩
              exact h.push hremote (lt_of_le_of_ne (h.cap _) hfull) _

lemma Good.routes (hcopied : ∀ n, o.copied n)
    (henqueued : ∀ n, o.enqueued n) (peers : ℕ → Peer) (l : List (Route × ℕ)) :
    Good w (done ++ l.filterMap fun r => eligible m peers r.1)
      (l.foldl (fun s r => s.routeEntry w m o peers r.1) s) := by
  induction l generalizing done s with
  | nil => simpa using h
  | cons r l ih =>
    have hstep := ih (h.routeEntry (m := m) hcopied henqueued peers r.1)
    cases he : eligible m peers r.1 with
    | none | some => simpa [he] using hstep

end

lemma flushRemoteBatch_of_empty {dst : ℕ} (h : s.builders dst = []) :
    s.flushRemoteBatch m o dst = s := by
  unfold State.flushRemoteBatch
  rw [if_pos h]

lemma Good.flushAll (h : Good w done s) (hcopied : ∀ n, o.copied n)
    (henqueued : ∀ n, o.enqueued n) (l : List ℕ) :
    let r := l.foldl (fun s dst => if dst ≠ w.index then s.flushRemoteBatch m o dst else s) s
    Good w done r ∧ ∀ dst, (dst ∈ l ∨ s.builders dst = []) → r.builders dst = [] := by
  induction l generalizing s with
  | nil => exact ⟨h, fun dst hd => hd.resolve_left not_mem_nil⟩
  | cons x l ih =>
    rw [foldl_cons]
    by_cases hx : w.Remote x
    · rw [if_pos hx.1]
      obtain ⟨hflush, hbuilders⟩ := h.flush (m := m) hcopied henqueued hx
      obtain ⟨hgood, hempty⟩ := ih hflush
      refine ⟨hgood, fun dst hd => hempty dst ?_⟩
      rw [hbuilders]
      by_cases hdx : dst = x
      · rw [hdx, update_self]
        exact .inr rfl
      · rw [update_of_ne hdx]
        rcases hd with hd | hd
        · exact .inl ((mem_cons.1 hd).resolve_left hdx)
        · exact .inr hd
    · -- the builder of the worker itself, and that of no worker, are always empty
      have hidle := h.idle x hx
      rw [flushRemoteBatch_of_empty hidle, ite_self]
      obtain ⟨hgood, hempty⟩ := ih h
      refine ⟨hgood, fun dst hd => hempty dst ?_⟩
      rcases hd with hd | hd
      · rcases mem_cons.1 hd with rfl | hd
        · exact .inr hidle
        · exact .inl hd
      · exact .inr hd

end

/-- **Forwarding reaches each eligible route exactly once.** With copies and batches that succeed,
the packet is handed to egress for the routes whose subscriber the worker owns, and in batches to
every other valid owner for its routes, in order and each exactly once. Nothing else is produced;
no batch is empty or too long. Every batch owns one reference of the copy, none is left over, and
the packet is released once. -/
theorem forward_exactly_once (w : Worker) (m : Media) (bundle : Option Bundle)
    (peers : ℕ → Peer) (o : Outcome) (packetRefs : ℕ)
    (hcopied : ∀ n, o.copied n = true)
    (henqueued : ∀ n, o.enqueued n = true) :
    let out := forward w m bundle peers o packetRefs
    let targets := reached m bundle peers
    out.egress = ownedBy targets w.index ∧
      (∀ dst, w.Remote dst → sentTo out.batches dst = ownedBy targets dst) ∧
      (∀ b ∈ out.batches, w.Remote b.dst ∧ b.targets ≠ [] ∧ b.targets.length ≤ batchCap) ∧
      (out.batches = [] ∧ out.copyRefs = none ∨ out.copyRefs = some out.batches.length) ∧
      out.packetRefs = packetRefs - 1 := by
  have hroutes := (good_init w).routes (m := m) hcopied henqueued peers
    (Bundle.iterate bundle m.kind)
  obtain ⟨hgood, hempty⟩ := hroutes.flushAll (m := m) hcopied henqueued (List.range w.workerCount)
  rw [nil_append, Bundle.iterate_eq] at hgood
  rw [Bundle.iterate_eq] at hempty
  unfold forward
  dsimp only
  rw [Bundle.iterate_eq]
  refine ⟨hgood.here, ?_, hgood.batch, ?_, rfl⟩
  · intro dst hdst
    have hsent := hgood.remote dst hdst
    rw [hempty dst (.inl (mem_range.2 hdst.2.2)), append_nil] at hsent
    exact hsent
  · rcases hgood.copy with ⟨hnone, hnil⟩ | hsome
    · left
      rw [hnone]
      exact ⟨hnil, rfl⟩
    · right
      rw [hsome]
      rfl

def plainRoute (n : ℕ) : Route :=
  { subscriber := some n, videoSsrc := 7, videoRtxSsrc := 8, screenSsrc := 0, screenRtxSsrc := 0,
    remoteSlot := 0, assignmentGeneration := 1, videoPt := 96, videoRtxPt := 97, screenPt := 0,
    screenRtxPt := 0 }

def eighteen : Bundle := ⟨fun i => if i = 0 then some ⟨0, 0x3FFFF, 0, plainRoute⟩ else none⟩

/-- The first subscriber belongs to worker 0, the others to worker 1. -/
def somePeers (n : ℕ) : Peer := ⟨true, true, true, if n = 0 then 0 else 1, n, fun _ => 1⟩

def cameraPacket : Media :=
  ⟨5, .video, false, false, false, ⟨0, 0, 0, 0, false, false, false, false, false, false⟩⟩

theorem forward_exactly_once_eighteen :
    let out := forward ⟨0, some 2⟩ cameraPacket (some eighteen) somePeers
      ⟨fun _ => true, fun _ => true⟩ 1
    out.egress.map Target.subscriber = [0] ∧ out.batches.map (·.targets.length) = [16, 1] ∧
      sentTo out.batches 1 = ownedBy (reached cameraPacket (some eighteen) somePeers) 1 := by
  intro out
  obtain ⟨-, hremote, -⟩ := forward_exactly_once ⟨0, some 2⟩ cameraPacket (some eighteen)
    somePeers ⟨fun _ => true, fun _ => true⟩ 1 (fun _ => rfl) fun _ => rfl
  exact ⟨by decide +kernel, by decide +kernel, hremote 1 (by decide +kernel)⟩

end MezonSfu.Router
