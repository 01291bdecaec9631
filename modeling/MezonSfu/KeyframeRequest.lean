import MezonSfu.Fanout

/-!
Whom a keyframe is asked from when feedback names an SSRC.

The members of the requester's room are searched twice: first those with a route of the matching
source back to the requester, then any. An absent stream has the SSRC zero.
-/

namespace MezonSfu.Keyframe

open Svc Fanout

/-- What the search reads of a member's session: the SSRCs of its media snapshot and its fanout
bundle. -/
structure Publisher where
  videoSsrc : UInt32
  videoRtxSsrc : UInt32
  screenSsrc : UInt32
  screenRtxSsrc : UInt32
  fanout : Option Bundle

/-- The requester, its room's slots if it is in a room, and the sessions by number. -/
structure Search where
  subscriber : ℕ
  room : Option (List (Option ℕ))
  sessions : ℕ → Publisher

/-- The source an SSRC belongs to; the camera is looked at first. -/
def Publisher.matchSource (p : Publisher) (mediaSsrc : UInt32) : Option MediaKind :=
  if p.videoSsrc = mediaSsrc ∨ p.videoRtxSsrc = mediaSsrc then some .video
  else if p.screenSsrc = mediaSsrc ∨ p.screenRtxSsrc = mediaSsrc then some .screen
  else none

def Publisher.routesTo (p : Publisher) (source : MediaKind) (subscriber : ℕ) : Bool :=
  (Bundle.iterate p.fanout source).any fun r => r.1.subscriber == some subscriber

namespace Search

variable (s : Search)

variable (mediaSsrc : UInt32)

/-- One slot of the room: another member, the SSRC of which passes the check. -/
def atSlot (accepts : Publisher → MediaKind → Bool) :
    Option ℕ → Option (ℕ × MediaKind)
  | none => none
  | some publisher =>
    if publisher = s.subscriber then none
    else
      match (s.sessions publisher).matchSource mediaSsrc with
      | none => none
      | some source =>
        if accepts (s.sessions publisher) source then some (publisher, source) else none

def findPublisherByMediaSsrc : Option (ℕ × MediaKind) :=
  match s.room with
  | none => none
  | some peers =>
    peers.findSome? (s.atSlot mediaSsrc fun p source => p.routesTo source s.subscriber)

def findPublisherByMediaSsrcUnrouted : Option (ℕ × MediaKind) :=
  match s.room with
  | none => none
  | some peers =>
    if mediaSsrc = 0 then none else peers.findSome? (s.atSlot mediaSsrc fun _ _ => true)

/-- `request_source_keyframe`: the publisher that is asked, and for which source. -/
def requestSourceKeyframe : Option (ℕ × MediaKind) :=
  match s.findPublisherByMediaSsrc mediaSsrc with
  | some found => some found
  | none => s.findPublisherByMediaSsrcUnrouted mediaSsrc

def OtherMember (publisher : ℕ) : Prop :=
  publisher ≠ s.subscriber ∧ ∃ peers, s.room = some peers ∧ some publisher ∈ peers

end Search

def Publisher.Carries (p : Publisher) (source : MediaKind) (ssrc : UInt32) : Prop :=
  (source = .video ∧ (p.videoSsrc = ssrc ∨ p.videoRtxSsrc = ssrc)) ∨
    (source = .screen ∧ (p.screenSsrc = ssrc ∨ p.screenRtxSsrc = ssrc))

namespace Search

/-- Whoever is asked is another member of the room, and the SSRC is a stream's and belongs to
the source that is asked for. -/
def AsksRight (s : Search) (mediaSsrc : UInt32) : Prop :=
  ∀ publisher source, s.requestSourceKeyframe mediaSsrc = some (publisher, source) →
    s.OtherMember publisher ∧ mediaSsrc ≠ 0 ∧ (s.sessions publisher).Carries source mediaSsrc

variable {s : Search} {mediaSsrc : UInt32} {accepts : Publisher → MediaKind → Bool}
  {publisher : ℕ} {source : MediaKind}

lemma matchSource_carries {p : Publisher} (h : p.matchSource mediaSsrc = some source) :
    p.Carries source mediaSsrc := by
  unfold Publisher.matchSource at h
  split_ifs at h with hv hs <;> cases h
  · exact .inl ⟨rfl, hv⟩
  · exact .inr ⟨rfl, hs⟩

lemma atSlot_eq_some {slot : Option ℕ}
    (h : s.atSlot mediaSsrc accepts slot = some (publisher, source)) :
    slot = some publisher ∧ publisher ≠ s.subscriber ∧
      (s.sessions publisher).matchSource mediaSsrc = some source ∧
      accepts (s.sessions publisher) source := by
  unfold atSlot at h
  cases slot with
  | none => cases h
  | some p =>
    dsimp only at h
    split_ifs at h with hself
    cases hm : (s.sessions p).matchSource mediaSsrc with
    | none =>
      rw [hm] at h
      cases h
    | some src =>
      rw [hm] at h
      dsimp only at h
      split_ifs at h with ha
      cases h
      exact ⟨rfl, hself, hm, ha⟩

lemma search_sound {peers : List (Option ℕ)} (hroom : s.room = some peers)
    (h : peers.findSome? (s.atSlot mediaSsrc accepts) = some (publisher, source)) :
    s.OtherMember publisher ∧ (s.sessions publisher).matchSource mediaSsrc = some source := by
  obtain ⟨slot, hmem, hslot⟩ := List.exists_of_findSome?_eq_some h
  obtain ⟨rfl, hne, hmatch, -⟩ := atSlot_eq_some hslot
  exact ⟨⟨hne, peers, hroom, hmem⟩, hmatch⟩

lemma request_sound (h : s.requestSourceKeyframe mediaSsrc = some (publisher, source)) :
    s.OtherMember publisher ∧ (s.sessions publisher).Carries source mediaSsrc := by
  unfold requestSourceKeyframe findPublisherByMediaSsrc findPublisherByMediaSsrcUnrouted at h
  cases hroom : s.room with
  | none =>
    rw [hroom] at h
    cases h
  | some peers =>
    rw [hroom] at h
    split at h
    · rename_i found hfound
      cases h
      obtain ⟨hmember, hmatch⟩ := search_sound hroom hfound
      exact ⟨hmember, matchSource_carries hmatch⟩
    · split_ifs at h
      obtain ⟨hmember, hmatch⟩ := search_sound hroom h
      exact ⟨hmember, matchSource_carries hmatch⟩

/-- For the SSRC zero only the first search finds anyone: a member without one of the streams that
has a route to the requester. -/
lemma request_zero_isNone :
    s.requestSourceKeyframe 0 = none ↔
      ∀ publisher, s.OtherMember publisher → ∀ source,
        (s.sessions publisher).matchSource 0 = some source →
        (s.sessions publisher).routesTo source s.subscriber = false := by
  unfold requestSourceKeyframe findPublisherByMediaSsrc findPublisherByMediaSsrcUnrouted
  cases hroom : s.room with
  | none =>
    refine ⟨fun _ publisher hm => ?_, fun _ => rfl⟩
    obtain ⟨-, peers, hp, -⟩ := hm
    rw [hroom] at hp
    cases hp
  | some peers =>
    dsimp only
    rw [if_pos rfl]
    constructor
    · intro h publisher hmember source hmatch
      have hnone : peers.findSome? (s.atSlot 0 fun p source => p.routesTo source s.subscriber) =
          none := by
        split at h
        · cases h
        · assumption
      obtain ⟨hne, peers', hp, hmem⟩ := hmember
      rw [hroom] at hp
      cases hp
      have hslot := List.findSome?_eq_none_iff.1 hnone _ hmem
      unfold atSlot at hslot
      dsimp only at hslot
      rw [if_neg hne, hmatch] at hslot
      dsimp only at hslot
      split_ifs at hslot with hr
      simpa using hr
    · intro h
      have hnone : peers.findSome? (s.atSlot 0 fun p source => p.routesTo source s.subscriber) =
          none := by
        rw [List.findSome?_eq_none_iff]
        intro slot hmem
        cases hslot : s.atSlot 0 (fun p source => p.routesTo source s.subscriber) slot with
        | none => rfl
        | some found =>
          obtain ⟨rfl, hne, hmatch, hroute⟩ := atSlot_eq_some hslot
          rw [h _ ⟨hne, peers, hroom, hmem⟩ _ hmatch] at hroute
          cases hroute
      rw [hnone]

/-- **A keyframe is requested only from the right publisher**, unless the SSRC is zero and another
member of the room that lacks a stream has a route of that stream's source to the requester. -/
theorem keyframe_request_right_iff (s : Search) (mediaSsrc : UInt32) :
    s.AsksRight mediaSsrc ↔
      (mediaSsrc = 0 → ∀ publisher, s.OtherMember publisher → ∀ source,
        (s.sessions publisher).matchSource 0 = some source →
        (s.sessions publisher).routesTo source s.subscriber = false) := by
  constructor
  · rintro h rfl
    rw [← request_zero_isNone]
    cases hr : s.requestSourceKeyframe 0 with
    | none => rfl
    | some found => exact absurd rfl (h found.1 found.2 hr).2.1
  · intro h publisher source hr
    obtain ⟨hmember, hcarries⟩ := request_sound hr
    refine ⟨hmember, ?_, hcarries⟩
    rintro rfl
    rw [request_zero_isNone.2 (h rfl)] at hr
    cases hr

end Search

/-- A camera without retransmission, with a route to session 1. -/
def noRtx : Publisher :=
  { videoSsrc := 7, videoRtxSsrc := 0, screenSsrc := 0, screenRtxSsrc := 0,
    fanout := some ⟨fun i => if i = 0 then
      some ⟨1, 1, 0, fun _ => ⟨some 1, 7, 0, 0, 0, 0, 1, 96, 0, 0, 0⟩⟩ else none⟩ }

def pair : Search := ⟨1, some [some 1, some 2], fun _ => noRtx⟩

/-- Feedback that names no stream makes the search ask the other member. -/
theorem zero_ssrc_asks : pair.requestSourceKeyframe 0 = some (2, .video) ∧ ¬ pair.AsksRight 0 := by
  have hask : pair.requestSourceKeyframe 0 = some (2, .video) := by decide +kernel
  exact ⟨hask, fun h => (h 2 .video hask).2.1 rfl⟩

theorem keyframe_request_right_seven :
    pair.requestSourceKeyframe 7 = some (2, .video) ∧ pair.AsksRight 7 := by
  refine ⟨by decide +kernel, (Search.keyframe_request_right_iff pair 7).2 ?_⟩
  intro h
  cases h

end MezonSfu.Keyframe
