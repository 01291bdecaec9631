import MezonSfu.LayerScheduler

/-!
What one call of the layer scheduler does.

Each call is described by the fields the frames depend on: the picture, its sets of layers, the
sequence check and the keyframe in progress. The transitions between layers and the pacer's
record never concern a frame's integrity.
-/

namespace MezonSfu.Svc

namespace LayerScheduler

/-! ### Preparing -/

structure SamePicture (s s' : LayerScheduler) : Prop where
  valid : s'.pictureValid = s.pictureValid
  timestamp : s'.pictureTimestamp = s.pictureTimestamp
  started : s'.startedSids = s.startedSids
  failed : s'.failedSids = s.failedSids
  active : s'.keyframeActive = s.keyframeActive
  keyframeFailed : s'.keyframeFailed = s.keyframeFailed
  keyframe : s'.keyframeTimestamp = s.keyframeTimestamp

variable {s : LayerScheduler} {desc : Descriptor} {d : Decision}

lemma SamePicture.trans {t u : LayerScheduler} (h : SamePicture s t) (h' : SamePicture t u) :
    SamePicture s u :=
  ⟨h'.valid.trans h.valid, h'.timestamp.trans h.timestamp, h'.started.trans h.started,
    h'.failed.trans h.failed, h'.active.trans h.active,
    h'.keyframeFailed.trans h.keyframeFailed, h'.keyframe.trans h.keyframe⟩

section

variable (s : LayerScheduler)

variable (timestamp : UInt32)

lemma beginPicture_cases :
    let r := s.beginPicture timestamp
    (s.pictureValid ∧ s.pictureTimestamp = timestamp ∧ s.beginPicture timestamp = s) ∨
    (r.startedSids = ∅ ∧ r.failedSids = ∅ ∧ r.keyframeActive = false) := by
  unfold beginPicture
  split
  · rename_i h
    rw [Bool.and_eq_true, beq_iff_eq] at h
    exact .inl ⟨h.1, h.2, rfl⟩
  · exact .inr ⟨rfl, rfl, rfl⟩

lemma beginPicture_picture :
    (s.beginPicture timestamp).pictureValid ∧
      (s.beginPicture timestamp).pictureTimestamp = timestamp := by
  unfold beginPicture
  split
  · rename_i h
    rwa [Bool.and_eq_true, beq_iff_eq] at h
  · exact ⟨rfl, rfl⟩

lemma beginPicture_kept :
    let r := s.beginPicture timestamp
    r.expectedSeq = s.expectedSeq ∧ r.seqInitialized = s.seqInitialized ∧
      (s.needsKeyframe → r.needsKeyframe) := by
  unfold beginPicture
  split
  · exact ⟨rfl, rfl, id⟩
  · refine ⟨rfl, rfl, ?_⟩
    intro h
    simp [h]

lemma checkSequence_spec (desc : Descriptor) (kf : Bool) :
    let r := s.checkSequence desc kf
    SamePicture s r.1 ∧ r.1.expectedSeq = desc.seq + 1 ∧ (s.needsKeyframe → r.1.needsKeyframe) := by
  unfold checkSequence
  split_ifs <;> exact ⟨⟨rfl, rfl, rfl, rfl, rfl, rfl, rfl⟩, rfl, by simp⟩

end

lemma checkSequence_continues {kf : Bool} (h : (s.checkSequence desc kf).2)
    (hb : desc.bBit = false) : s.seqInitialized ∧ desc.seq = s.expectedSeq := by
  unfold checkSequence at h
  rw [hb] at h
  simp only [Bool.not_false, if_true] at h
  split at h
  · cases h
  · rename_i hok
    simp only [Bool.or_eq_true, Bool.not_eq_true', bne_iff_ne, ne_eq, not_or, not_not,
      Bool.not_eq_false] at hok
    exact ⟨hok.1.1, hok.1.2⟩

lemma clampLayers_spec (s : LayerScheduler) :
    SamePicture s s.clampLayers ∧ s.clampLayers.expectedSeq = s.expectedSeq ∧
      s.clampLayers.needsKeyframe = s.needsKeyframe := by
  unfold clampLayers
  split_ifs <;> exact ⟨⟨rfl, rfl, rfl, rfl, rfl, rfl, rfl⟩, rfl, rfl⟩

structure About (desc : Descriptor) (d : Decision) : Prop where
  timestamp : d.rtpTimestamp = desc.rtpTimestamp
  seq : d.seq = desc.seq
  sid : d.sid = desc.sid
  bBit : d.bBit = desc.bBit
  eBit : d.eBit = desc.eBit

def Concerns (desc : Descriptor) : Except Decision Decision → Prop
  | .ok d => About desc d
  | .error d => About desc d

lemma about_start (desc : Descriptor) : About desc (Decision.start desc) :=
  ⟨rfl, rfl, rfl, rfl, rfl⟩

lemma Concerns.bind {r : Except Decision Decision} {f : Decision → Except Decision Decision}
    (h : Concerns desc r) (hf : ∀ d, About desc d → Concerns desc (f d)) :
    Concerns desc (r >>= f) := by
  cases r with
  | error d => exact h
  | ok d => exact hf d h

section

variable {kf : Bool} {e : Decision}

section

variable (h : About desc d)

include h

lemma concerns_checkLayer : Concerns desc (s.checkLayer desc d) := by
  unfold checkLayer
  split_ifs <;> exact { h with }

lemma concerns_checkKeyframe : Concerns desc (s.checkKeyframe desc kf d) := by
  unfold checkKeyframe
  split_ifs <;> exact { h with }

lemma concerns_checkSpatial : Concerns desc (s.checkSpatial desc d) := by
  unfold checkSpatial
  split_ifs <;> exact { h with }

lemma concerns_checkTemporal : Concerns desc (s.checkTemporal desc d) := by
  unfold checkTemporal
  split_ifs <;> exact { h with }

lemma about_classify : About desc (s.classify desc d) := by
  unfold classify
  dsimp only
  split_ifs <;> exact { h with }

lemma concerns_checkPacer : Concerns desc (s.checkPacer desc d) := by
  unfold checkPacer
  split_ifs <;> exact { h with }

end

lemma concerns_checkPacket : Concerns desc (s.checkPacket desc kf) := by
  refine (concerns_checkLayer (about_start desc)).bind fun d hd => ?_
  refine (concerns_checkKeyframe hd).bind fun d hd => ?_
  refine (concerns_checkSpatial hd).bind fun d hd => ?_
  refine (concerns_checkTemporal hd).bind fun d hd => ?_
  refine (concerns_checkPacer (about_classify hd)).bind fun d hd => ?_
  exact { hd with }

lemma checkLayer_ok (h : s.checkLayer desc d = .ok e) :
    e = d ∧ desc.sid ∉ s.failedSids ∧ (desc.bBit = false → desc.sid ∈ s.startedSids) := by
  unfold checkLayer at h
  split_ifs at h with h1 h2
  refine ⟨(Except.ok.inj h).symm, fun hin => h1 (.inl hin), ?_⟩
  intro hb
  by_contra hnot
  exact h2 ⟨hb, hnot⟩

/-- The keyframe bits of a decision: what they say about the packet. -/
structure KeyframeBits (desc : Descriptor) (d : Decision) : Prop where
  packet : d.keyframePacket = true → desc.sid = 0 ∧ desc.pBit = false
  start : d.startKeyframe = true → desc.isKeyframe = true ∧ d.keyframePacket = true

/-- **The gate**: while a keyframe is needed, a packet starts one, or belongs to the one in
progress. -/
lemma checkKeyframe_ok (h : s.checkKeyframe desc desc.isKeyframe d = .ok e)
    (hp : d.keyframePacket = false) (hs : d.startKeyframe = false) :
    KeyframeBits desc e ∧
      (s.needsKeyframe → desc.isKeyframe ∨
        (s.keyframeActive ∧ s.keyframeTimestamp = desc.rtpTimestamp ∧ desc.sid = 0 ∧
          desc.pBit = false)) := by
  have hkey : desc.isKeyframe → desc.sid = 0 ∧ desc.pBit = false := by
    intro hk
    unfold Descriptor.isKeyframe at hk
    simp only [Bool.and_eq_true, Bool.not_eq_true', beq_iff_eq] at hk
    exact ⟨hk.2, hk.1.2⟩
  have hplain : KeyframeBits desc d :=
    ⟨fun h => absurd (hp.symm.trans h) Bool.noConfusion,
      fun h => absurd (hs.symm.trans h) Bool.noConfusion⟩
  unfold checkKeyframe at h
  split_ifs at h with h1 h2 h3 h4 h5 h6 h7 h8 <;> obtain rfl := Except.ok.inj h
  · -- a keyframe starts
    have hk : desc.isKeyframe := by
      simp only [Bool.or_eq_true, Bool.not_eq_true', not_or] at h3
      simpa using h3.1.1
    exact ⟨⟨fun _ => hkey hk, fun _ => ⟨hk, rfl⟩⟩, fun _ => .inl hk⟩
  · -- a packet of the keyframe in progress
    simp only [Bool.or_eq_true, bne_iff_ne, ne_eq, not_or, not_not, Bool.not_eq_true] at h4
    obtain ⟨⟨⟨-, hts⟩, hsid⟩, hpbit⟩ := h4
    have hact : s.keyframeActive := by simpa using h2
    exact ⟨⟨fun _ => ⟨hsid, hpbit⟩, fun h => absurd (hs.symm.trans h) Bool.noConfusion⟩,
      fun _ => .inr ⟨hact, hts, hsid, hpbit⟩⟩
  · -- a keyframe that was not asked for
    have hact : s.keyframeActive = false := by simpa using h6
    rw [hact, Bool.or_false] at h5
    exact ⟨⟨fun _ => hkey h5, fun _ => ⟨h5, rfl⟩⟩, fun hn => absurd hn h1⟩
  · exact ⟨hplain, fun hn => absurd hn h1⟩
  · simp only [Bool.and_eq_true, beq_iff_eq, Bool.not_eq_true'] at h8
    exact ⟨⟨fun _ => ⟨h8.1.2, h8.2⟩, fun h => absurd (hs.symm.trans h) Bool.noConfusion⟩,
      fun hn => absurd hn h1⟩
  · exact ⟨hplain, fun hn => absurd hn h1⟩
  · exact ⟨hplain, fun hn => absurd hn h1⟩

def KeepsBits (d : Decision) : Except Decision Decision → Prop
  | .ok e | .error e => e.keyframePacket = d.keyframePacket ∧ e.startKeyframe = d.startKeyframe

lemma keepsBits_checkSpatial : KeepsBits d (s.checkSpatial desc d) := by
  unfold checkSpatial
  split_ifs <;> exact ⟨rfl, rfl⟩

lemma keepsBits_checkTemporal : KeepsBits d (s.checkTemporal desc d) := by
  unfold checkTemporal
  split_ifs <;> exact ⟨rfl, rfl⟩

lemma keepsBits_checkPacer : KeepsBits d (s.checkPacer desc (s.classify desc d)) := by
  have hclass : (s.classify desc d).keyframePacket = d.keyframePacket ∧
      (s.classify desc d).startKeyframe = d.startKeyframe := by
    unfold classify
    dsimp only
    split_ifs <;> exact ⟨rfl, rfl⟩
  unfold checkPacer
  split_ifs <;> exact hclass

/-- What is known of a packet that passes all checks. -/
structure Passes (s : LayerScheduler) (desc : Descriptor) (d : Decision) : Prop where
  about : About desc d
  forward : d.shouldForward = true
  failed : desc.sid ∉ s.failedSids
  started : desc.bBit = false → desc.sid ∈ s.startedSids
  bits : KeyframeBits desc d
  gate : s.needsKeyframe = true → desc.isKeyframe = true ∨
    (s.keyframeActive = true ∧ s.keyframeTimestamp = desc.rtpTimestamp ∧ desc.sid = 0 ∧
      desc.pBit = false)

lemma bind_eq_ok {r : Except Decision Decision} {f : Decision → Except Decision Decision}
    (h : r >>= f = .ok e) : ∃ d, r = .ok d ∧ f d = .ok e := by
  cases r with
  | error d => cases h
  | ok d => exact ⟨d, rfl, h⟩

lemma checkPacket_ok (h : s.checkPacket desc desc.isKeyframe = .ok d) : Passes s desc d := by
  have habout : Concerns desc (s.checkPacket desc desc.isKeyframe) := concerns_checkPacket
  rw [h] at habout
  unfold checkPacket at h
  obtain ⟨d1, h1, h⟩ := bind_eq_ok h
  obtain ⟨rfl, hfailed, hstarted⟩ := checkLayer_ok h1
  obtain ⟨d2, h2, h⟩ := bind_eq_ok h
  obtain ⟨d3, h3, h⟩ := bind_eq_ok h
  obtain ⟨d4, h4, h⟩ := bind_eq_ok h
  obtain ⟨d5, h5, h⟩ := bind_eq_ok h
  obtain ⟨hbits, hgate⟩ := checkKeyframe_ok h2 rfl rfl
  have hspatial : KeepsBits d2 (s.checkSpatial desc d2) := keepsBits_checkSpatial
  have htemporal : KeepsBits d3 (s.checkTemporal desc d3) := keepsBits_checkTemporal
  have hpacer : KeepsBits d4 (s.checkPacer desc (s.classify desc d4)) := keepsBits_checkPacer
  rw [h3] at hspatial
  rw [h4] at htemporal
  rw [h5] at hpacer
  have hpacket := hpacer.1.trans (htemporal.1.trans hspatial.1)
  have hstart := hpacer.2.trans (htemporal.2.trans hspatial.2)
  cases h
  exact ⟨habout, rfl, hfailed, hstarted, ⟨hpacket ▸ hbits.packet, hpacket ▸ hstart ▸ hbits.start⟩,
    hgate⟩

end

/-- **One preparation** of a packet with a valid layer. -/
structure Prepared (s : LayerScheduler) (desc : Descriptor) (s' : LayerScheduler)
    (r : Except Decision Decision) : Prop where
  picture : SamePicture (s.beginPicture desc.rtpTimestamp) s'
  expected : s'.expectedSeq = desc.seq + 1
  needs : s.needsKeyframe = true → s'.needsKeyframe = true
  concerns : Concerns desc r
  passes : ∀ d, r = .ok d → Passes s' desc d
  continues : ∀ d, r = .ok d → desc.bBit = false →
    s.seqInitialized = true ∧ desc.seq = s.expectedSeq

lemma preparePacket_spec (s : LayerScheduler) (hsid : desc.sid < 8) :
    let r := s.preparePacket desc desc.isKeyframe
    Prepared s desc r.1 r.2 := by
  set s1 := s.beginPicture desc.rtpTimestamp
  obtain ⟨hexpected, hinit, hneeds⟩ := beginPicture_kept s desc.rtpTimestamp
  obtain ⟨hsame, hnext, hkeep⟩ := checkSequence_spec s1 desc desc.isKeyframe
  obtain ⟨hclamp, hclampSeq, hclampNeeds⟩ := clampLayers_spec
    (s1.checkSequence desc desc.isKeyframe).1
  unfold preparePacket
  rw [if_neg (by omega)]
  dsimp only
  cases hgap : (s1.checkSequence desc desc.isKeyframe).2 with
  | false =>
    exact ⟨hsame, hnext, fun h => hkeep (hneeds h), ⟨rfl, rfl, rfl, rfl, rfl⟩,
      (fun _ hd => by cases hd), fun _ hd => by cases hd⟩
  | true =>
    refine ⟨hsame.trans hclamp, hclampSeq.trans hnext, fun h => ?_, concerns_checkPacket,
      fun d hd => checkPacket_ok hd, fun d _ hb => ?_⟩
    · change (clampLayers _).needsKeyframe
      rw [hclampNeeds]
      exact hkeep (hneeds h)
    · have := checkSequence_continues hgap hb
      rwa [hexpected, hinit] at this

/-! ### Committing and rejecting -/

/-- **One commit** of a packet of the current picture. -/
structure Committed (s : LayerScheduler) (d : Decision) (s' : LayerScheduler) : Prop where
  valid : s'.pictureValid = s.pictureValid
  timestamp : s'.pictureTimestamp = s.pictureTimestamp
  failed : s'.failedSids = s.failedSids
  started : s'.startedSids = if d.bBit then insert d.sid s.startedSids else s.startedSids
  seqInitialized : s'.seqInitialized = true
  expected : s'.expectedSeq = d.seq + 1
  keyframe : s'.keyframeTimestamp = if d.startKeyframe then d.rtpTimestamp else s.keyframeTimestamp
  active : s'.keyframeActive = true → s.keyframeActive = true ∨ d.startKeyframe = true
  needs : s.needsKeyframe = true → s'.needsKeyframe = false →
    d.keyframePacket = true ∧ d.eBit = true ∧ d.sid ∉ s.failedSids ∧
      (s.keyframeActive = true ∨ d.startKeyframe = true)

/-- The parts of a commit that are about other things. -/
structure Untouched (s s' : LayerScheduler) : Prop extends SamePicture s s' where
  expected : s'.expectedSeq = s.expectedSeq
  seqInitialized : s'.seqInitialized = s.seqInitialized
  needs : s'.needsKeyframe = s.needsKeyframe

section

variable (s : LayerScheduler)

variable (d : Decision)

lemma untouched_commitPacer : Untouched s (s.commitPacer d) := by
  unfold commitPacer
  split_ifs <;> exact ⟨⟨rfl, rfl, rfl, rfl, rfl, rfl, rfl⟩, rfl, rfl, rfl⟩

lemma untouched_commitSpatial : Untouched s (s.commitSpatial d) := by
  unfold commitSpatial
  split_ifs <;> exact ⟨⟨rfl, rfl, rfl, rfl, rfl, rfl, rfl⟩, rfl, rfl, rfl⟩

lemma untouched_commitTemporal : Untouched s (s.commitTemporal d) := by
  unfold commitTemporal
  split_ifs <;> exact ⟨⟨rfl, rfl, rfl, rfl, rfl, rfl, rfl⟩, rfl, rfl, rfl⟩

/-- The end of a frame only changes the keyframe in progress, and completes it when nothing of
its layer failed. -/
lemma commitFrameEnd_spec : let s' := s.commitFrameEnd d
    s'.pictureValid = s.pictureValid ∧ s'.pictureTimestamp = s.pictureTimestamp ∧
      s'.failedSids = s.failedSids ∧ s'.startedSids = s.startedSids ∧
      s'.seqInitialized = s.seqInitialized ∧ s'.expectedSeq = s.expectedSeq ∧
      s'.keyframeTimestamp = s.keyframeTimestamp ∧
      (s'.keyframeActive → s.keyframeActive) ∧
      (s.needsKeyframe → s'.needsKeyframe = false →
        d.keyframePacket ∧ d.eBit ∧ d.sid ∉ s.failedSids ∧
          s.keyframeActive) := by
  have hend : ∀ t : LayerScheduler, t.failedSids = s.failedSids →
      t.keyframeActive = s.keyframeActive → t.keyframeTimestamp = s.keyframeTimestamp →
      (!(t.keyframeActive && !t.keyframeFailed && t.keyframeTimestamp == d.rtpTimestamp &&
        decide (d.sid ∉ t.failedSids))) = false →
      d.sid ∉ s.failedSids ∧ s.keyframeActive := by
    intro t hfailed hactive _ hcomplete
    simp only [Bool.not_eq_false', Bool.and_eq_true, decide_eq_true_eq] at hcomplete
    rw [← hfailed, ← hactive]
    exact ⟨hcomplete.2, hcomplete.1.1.1⟩
  unfold commitFrameEnd
  dsimp only
  by_cases hkey : (d.keyframePacket && d.eBit)
  · rw [if_pos hkey]
    rw [Bool.and_eq_true] at hkey
    split_ifs <;> refine ⟨rfl, rfl, rfl, rfl, rfl, rfl, rfl, nofun, fun _ hdone => ?_⟩ <;>
      exact ⟨hkey.1, hkey.2, hend _ rfl rfl rfl hdone⟩
  · rw [if_neg hkey]
    split_ifs <;> refine ⟨rfl, rfl, rfl, rfl, rfl, rfl, rfl, id, fun hneeds hdone => ?_⟩ <;>
      exact absurd (hneeds.symm.trans hdone) Bool.noConfusion

end

lemma commitPacket_spec (hin : s.inPicture d) (hforward : d.shouldForward) :
    Committed s d (s.commitPacket d) := by
  unfold commitPacket
  rw [hforward, hin, if_neg (by simp)]
  obtain ⟨⟨pv, pt, ps, pf, pa, -, pk⟩, pe, pi, pn⟩ := untouched_commitPacer (s.commitStart d) d
  set s1 := (s.commitStart d).commitPacer d
  obtain ⟨fv, ft, ff, fs, fi, fe, fk, fa, fn⟩ := commitFrameEnd_spec s1 d
  set s2 := s1.commitFrameEnd d
  obtain ⟨⟨sv, st, ss, sf, sa, -, sk⟩, se, si, sn⟩ := untouched_commitSpatial s2 d
  set s3 := s2.commitSpatial d
  obtain ⟨⟨tv, tt, ts, tf, ta, -, tk⟩, te, ti, tn⟩ := untouched_commitTemporal s3 d
  have hactive : s1.keyframeActive → s.keyframeActive ∨ d.startKeyframe := by
    rw [pa]
    exact fun h => Bool.or_eq_true .. ▸ h
  constructor
  · rw [tv, sv, fv, pv]
    rfl
  · rw [tt, st, ft, pt]
    rfl
  · rw [tf, sf, ff, pf]
    rfl
  · rw [ts, ss, fs, ps]
    rfl
  · rw [ti, si, fi, pi]
    rfl
  · rw [te, se, fe, pe]
    rfl
  · rw [tk, sk, fk, pk]
    rfl
  · rw [ta, sa]
    exact fun h => hactive (fa h)
  · rw [tn, sn]
    intro hneeds hdone
    obtain ⟨hpacket, heBit, hfailed, hact⟩ := fn (pn.trans hneeds) hdone
    rw [pf] at hfailed
    exact ⟨hpacket, heBit, hfailed, hactive hact⟩

/-- **One rejection** of a packet of the current picture. -/
structure Rejected (s : LayerScheduler) (d : Decision) (s' : LayerScheduler) : Prop where
  valid : s'.pictureValid = s.pictureValid
  timestamp : s'.pictureTimestamp = s.pictureTimestamp
  failed : s'.failedSids = insert d.sid s.failedSids
  started : s'.startedSids = s.startedSids
  seqInitialized : s'.seqInitialized = s.seqInitialized
  expected : s'.expectedSeq = s.expectedSeq
  keyframe : s'.keyframeTimestamp = s.keyframeTimestamp
  active : s'.keyframeActive = true → s.keyframeActive = true
  needs : s.needsKeyframe = true → s'.needsKeyframe = true

lemma rejectPacket_spec (hin : s.inPicture d) : Rejected s d (s.rejectPacket d) := by
  unfold rejectPacket
  rw [hin, if_neg (by simp)]
  refine ⟨rfl, rfl, rfl, rfl, rfl, rfl, rfl, ?_, ?_⟩
  · intro h
    exact (Bool.and_eq_true .. ▸ h).1
  · intro h
    simp [h]

end LayerScheduler

end MezonSfu.Svc
