import MezonSfu.SchedulerPacket

/-!
What the calls of the layer scheduler do about gaps in the source numbers.

A gap that the sequence check sees asks for a keyframe. The start of a keyframe resets the check
before the layer of the packet is looked at.
-/

namespace MezonSfu.Svc

/-! ### What a preparation says of the sequence numbers -/

namespace LayerScheduler

/-- The fields the sequence check and the keyframe gate read. -/
structure Aligned (s s' : LayerScheduler) : Prop extends Untouched s s' where
  corrupted : s'.frameCorrupted = s.frameCorrupted
  source : s'.source = s.source

lemma aligned_setBitrate (s : LayerScheduler) (bitrateBps : ℕ) (now : ℤ) :
    Aligned s (s.setBitrate bitrateBps now) := by
  unfold setBitrate
  dsimp only
  split_ifs <;> exact ⟨⟨⟨rfl, rfl, rfl, rfl, rfl, rfl, rfl⟩, rfl, rfl, rfl⟩, rfl, rfl⟩

lemma aligned_forStream (s : LayerScheduler) : Aligned s (s.forStream s.source) := by
  unfold forStream
  split_ifs <;> exact ⟨⟨⟨rfl, rfl, rfl, rfl, rfl, rfl, rfl⟩, rfl, rfl, rfl⟩, rfl, rfl⟩

variable {s : LayerScheduler} {desc : Descriptor} {d : Decision}

lemma forStream_targetTid (h : s.source ≠ .screen) :
    (s.forStream s.source).targetTid = s.targetTid := by
  unfold forStream
  rw [if_neg h]

/-- A picture is begun or gone on with: a keyframe that is given up is needed again, and the
flags are those of this picture. -/
structure Begins (s : LayerScheduler) (timestamp : UInt32) (s' : LayerScheduler) : Prop where
  source : s'.source = s.source
  targetTid : s'.targetTid = s.targetTid
  expected : s'.expectedSeq = s.expectedSeq
  initialized : s'.seqInitialized = s.seqInitialized
  needs : s'.needsKeyframe = false → s.needsKeyframe = false
  active : s'.needsKeyframe = false → s.keyframeActive = true → s'.keyframeActive = true
  corrupted : s'.frameCorrupted = true → s.frameCorrupted = true
  same : s'.keyframeActive = true → s.pictureTimestamp = timestamp ∧ s' = s
  failed : ∀ i ∈ s'.failedSids, s.pictureTimestamp = timestamp ∧ i ∈ s.failedSids

lemma beginPicture_begins (s : LayerScheduler) (timestamp : UInt32) :
    Begins s timestamp (s.beginPicture timestamp) := by
  unfold beginPicture
  split
  · rename_i h
    rw [Bool.and_eq_true, beq_iff_eq] at h
    exact ⟨rfl, rfl, rfl, rfl, id, fun _ => id, id, fun _ => ⟨h.2, rfl⟩, fun i hi => ⟨h.2, hi⟩⟩
  refine ⟨rfl, rfl, rfl, rfl, ?_, ?_, nofun, nofun, ?_⟩
  · intro hn
    simp only [Bool.or_eq_false_iff] at hn
    exact hn.1.1
  · intro hn hact
    simp only [Bool.or_eq_false_iff] at hn
    rw [hn.2] at hact
    cases hact
  · intro i hi
    simp at hi

/-- **The sequence check.** A gap asks for a keyframe; a packet that passes carries the expected
number or starts a keyframe. -/
structure Sequenced (s : LayerScheduler) (desc : Descriptor) (s' : LayerScheduler) (ok : Bool) :
    Prop where
  source : s'.source = s.source
  targetTid : s'.targetTid = s.targetTid
  initialized : s'.seqInitialized = false → s.seqInitialized = false
  corrupted : s'.frameCorrupted = !ok
  needs : s'.needsKeyframe = (s.needsKeyframe || !ok)
  passed : ok = true → desc.bBit = false → s.frameCorrupted = false
  next : ok = true → desc.isKeyframe = false → s.seqInitialized = true → desc.seq = s.expectedSeq
  keyframe : desc.isKeyframe = true → ok = true ∧ s'.seqInitialized = true

lemma checkSequence_sequenced (s : LayerScheduler) (desc : Descriptor) :
    let r := s.checkSequence desc desc.isKeyframe
    Sequenced s desc r.1 r.2 := by
  have hplain : desc.bBit = false → desc.isKeyframe = false := by
    intro hb
    simp [Descriptor.isKeyframe, hb]
  have hgap : desc.isKeyframe = false → Sequenced s desc
      { s with frameCorrupted := true, needsKeyframe := true, expectedSeq := desc.seq + 1 }
      false := by
    intro hk
    refine ⟨rfl, rfl, id, rfl, (Bool.or_true _).symm, nofun, nofun, ?_⟩
    rw [hk]
    nofun
  unfold checkSequence
  split_ifs with hb h1 hk h2
  · exact hgap (hplain (by simpa using hb))
  · simp only [Bool.or_eq_true, Bool.not_eq_true', bne_iff_ne, ne_eq, not_or, not_not,
      Bool.not_eq_true] at h1
    have hk := hplain (by simpa using hb)
    refine ⟨rfl, rfl, id, h1.2, (Bool.or_false _).symm, fun _ _ => h1.2, fun _ _ _ => h1.1.2, ?_⟩
    rw [hk]
    nofun
  · exact hgap (by simpa using hk)
  · simp only [Bool.and_eq_true, bne_iff_ne, ne_eq, not_and, not_not] at h2
    refine ⟨rfl, rfl, id, rfl, (Bool.or_false _).symm, ?_, fun _ _ => h2, ?_⟩
    · intro _ hb'
      rw [hb'] at hb
      exact absurd rfl hb
    · intro hk'
      rw [hk'] at hk
      cases hk
  · have hk' : desc.isKeyframe := by simpa using hk
    refine ⟨rfl, rfl, nofun, rfl, (Bool.or_false _).symm, ?_, ?_, fun _ => ⟨rfl, rfl⟩⟩
    · intro _ hb'
      rw [hplain hb'] at hk'
      cases hk'
    · intro _ hk''
      rw [hk''] at hk'
      cases hk'

lemma aligned_clampLayers (s : LayerScheduler) :
    Aligned s s.clampLayers ∧ (s.source ≠ .screen → s.clampLayers.targetTid = s.targetTid) := by
  unfold clampLayers
  split
  · rename_i h
    exact ⟨⟨⟨⟨rfl, rfl, rfl, rfl, rfl, rfl, rfl⟩, rfl, rfl, rfl⟩, rfl, rfl⟩, fun h' => absurd h h'⟩
  · exact ⟨⟨⟨⟨rfl, rfl, rfl, rfl, rfl, rfl, rfl⟩, rfl, rfl, rfl⟩, rfl, rfl⟩, fun _ => rfl⟩

def Starts : Except Decision Decision → Prop
  | .ok d => d.startKeyframe = true ∧ d.keyframePacket = true
  | .error d => d.startKeyframe = true ∧ d.keyframePacket = true

lemma Starts.bind {r : Except Decision Decision} {f : Decision → Except Decision Decision}
    (h : Starts r) (hf : ∀ d, d.startKeyframe ∧ d.keyframePacket → Starts (f d)) :
    Starts (r >>= f) := by
  cases r with
  | error d => exact h
  | ok d => exact hf d h

lemma KeepsBits.starts {r : Except Decision Decision} (hr : KeepsBits d r)
    (h : d.startKeyframe ∧ d.keyframePacket) : Starts r := by
  cases r <;> exact ⟨hr.2.trans h.1, hr.1.trans h.2⟩

/-- The start of a keyframe that the layer check lets through is known as one, whatever the later
checks say. -/
lemma checkPacket_starts (hkey : desc.isKeyframe) (hneeds : s.needsKeyframe = false)
    (hactive : s.keyframeActive = false)
    (hlayer : s.checkLayer desc (Decision.start desc) = .ok (Decision.start desc)) :
    Starts (s.checkPacket desc desc.isKeyframe) := by
  have hbits := hkey
  simp only [Descriptor.isKeyframe, Bool.and_eq_true, Bool.not_eq_true', beq_iff_eq] at hbits
  have hgate : Starts (s.checkKeyframe desc desc.isKeyframe (Decision.start desc)) := by
    unfold checkKeyframe
    rw [hneeds, hactive, hkey, hbits.1.1, hbits.2]
    exact ⟨rfl, rfl⟩
  unfold checkPacket
  rw [hlayer]
  refine hgate.bind fun d hd => ?_
  refine (keepsBits_checkSpatial.starts hd).bind fun d hd => ?_
  refine (keepsBits_checkTemporal.starts hd).bind fun d hd => ?_
  exact (keepsBits_checkPacer.starts hd).bind fun d hd => hd

/-- The start of a keyframe is turned down by the layer check only above the temporal target, or
when layer 0 of the picture has failed. -/
lemma checkLayer_keyframe (hkey : desc.isKeyframe) (hfailed : 0 ∉ s.failedSids)
    (htid : s.source ≠ .screen → desc.tid ≤ s.targetTid) :
    s.checkLayer desc (Decision.start desc) = .ok (Decision.start desc) := by
  simp only [Descriptor.isKeyframe, Bool.and_eq_true, Bool.not_eq_true', beq_iff_eq] at hkey
  unfold checkLayer
  rw [if_neg, if_neg]
  · rw [hkey.1.1]
    exact fun h => Bool.noConfusion h.1
  rw [hkey.2]
  rintro (h | h | h)
  · exact hfailed h
  · omega
  · have := htid h.1
    omega

def TakesKeyframe (s : LayerScheduler) (desc : Descriptor) : Prop :=
  desc.tid ≤ s.targetTid ∧ (s.pictureTimestamp = desc.rtpTimestamp → 0 ∉ s.failedSids)

instance (s : LayerScheduler) (desc : Descriptor) : Decidable (s.TakesKeyframe desc) := by
  unfold TakesKeyframe
  exact inferInstance

/-- **One preparation**, as far as gaps are concerned. -/
structure Judged (s : LayerScheduler) (desc : Descriptor) (s' : LayerScheduler)
    (r : Except Decision Decision) : Prop where
  source : s'.source = s.source
  fresh : s'.seqInitialized = false → s.seqInitialized = false
  needs : s'.needsKeyframe = false → s.needsKeyframe = false ∧ s'.frameCorrupted = false
  active : s'.needsKeyframe = false → s.keyframeActive = true → s'.keyframeActive = true
  same : s'.keyframeActive = true → s.keyframeActive = true ∧
    s.pictureTimestamp = desc.rtpTimestamp ∧ (s.needsKeyframe = true → s'.needsKeyframe = true)
  ok : ∀ d, r = .ok d → s'.frameCorrupted = false
  next : s'.frameCorrupted = false → desc.isKeyframe = false → s.seqInitialized = true →
    desc.seq = s.expectedSeq
  passed : s'.frameCorrupted = false → s'.keyframeActive = true → desc.bBit = false →
    s.frameCorrupted = false
  starts : desc.isKeyframe = true → s'.needsKeyframe = false → s'.keyframeActive = false →
    (s.source ≠ .screen → s.TakesKeyframe desc) →
    Starts r ∨ (s'.source = .screen ∧ ∃ d, r = .error d)

section

variable {p q : LayerScheduler}

lemma judged_gap (hb : Begins s desc.rtpTimestamp p) (hq : Sequenced p desc q false)
    (hsame : SamePicture p q) (d : Decision) : Judged s desc q (.error d) := by
  have hn : q.needsKeyframe := hq.needs.trans (Bool.or_true _)
  have hc : q.frameCorrupted := hq.corrupted
  have hneeds : q.needsKeyframe ≠ false := by simp [hn]
  have hcorrupted : q.frameCorrupted ≠ false := by simp [hc]
  refine ⟨hq.source.trans hb.source, ?_, fun h => absurd h hneeds, fun h => absurd h hneeds, ?_,
    ?_, fun h => absurd h hcorrupted, fun h => absurd h hcorrupted, ?_⟩
  · intro h
    rw [← hb.initialized]
    exact hq.initialized h
  · intro h
    rw [hsame.active] at h
    obtain ⟨hts, hps⟩ := hb.same h
    rw [hps] at h
    exact ⟨h, hts, fun _ => hn⟩
  · intro d' hd
    cases hd
  · intro hk
    exact absurd (hq.keyframe hk).1 Bool.false_ne_true

lemma judged_passed (hb : Begins s desc.rtpTimestamp p) (hq : Sequenced p desc q true)
    (hsame : SamePicture p q) :
    Judged s desc q.clampLayers (q.clampLayers.checkPacket desc desc.isKeyframe) := by
  obtain ⟨hclamp, htid⟩ := aligned_clampLayers q
  have hn : q.clampLayers.needsKeyframe = p.needsKeyframe := by
    rw [hclamp.needs, hq.needs, Bool.not_true, Bool.or_false]
  have hc : q.clampLayers.frameCorrupted = false := hclamp.corrupted.trans hq.corrupted
  have hact : q.clampLayers.keyframeActive = p.keyframeActive := hclamp.active.trans hsame.active
  have hsource : q.clampLayers.source = s.source := hclamp.source.trans (hq.source.trans hb.source)
  have hfailed : q.clampLayers.failedSids = p.failedSids := hclamp.failed.trans hsame.failed
  have hinit : q.clampLayers.seqInitialized = false → s.seqInitialized = false := by
    intro h
    rw [hclamp.seqInitialized] at h
    rw [← hb.initialized]
    exact hq.initialized h
  have htarget : q.clampLayers.source ≠ .screen → q.clampLayers.targetTid = s.targetTid := by
    intro hns
    rw [htid (hclamp.source ▸ hns), hq.targetTid, hb.targetTid]
  generalize q.clampLayers = t at *
  refine ⟨hsource, hinit, ?_, ?_, ?_, fun _ _ => hc, ?_, ?_, ?_⟩
  · intro h
    exact ⟨hb.needs (hn ▸ h), hc⟩
  · intro h
    rw [hact]
    exact hb.active (hn ▸ h)
  · intro h
    rw [hact] at h
    obtain ⟨hts, rfl⟩ := hb.same h
    exact ⟨h, hts, fun h' => hn.trans h'⟩
  · intro _ hk hseq
    rw [hq.next rfl hk (hb.initialized.trans hseq), hb.expected]
  · intro _ h hbit
    rw [hact] at h
    rw [← (hb.same h).2]
    exact hq.passed rfl hbit
  · intro hk hneeds hactive htakes
    by_cases hscreen : t.source = .screen
    · cases hlayer : t.checkLayer desc (Decision.start desc) with
      | error d =>
        refine .inr ⟨hscreen, d, ?_⟩
        unfold checkPacket
        rw [hlayer]
        rfl
      | ok d =>
        rw [(checkLayer_ok hlayer).1] at hlayer
        exact .inl (checkPacket_starts hk hneeds hactive hlayer)
    · obtain ⟨hle, hzero⟩ := htakes (hsource ▸ hscreen)
      refine .inl (checkPacket_starts hk hneeds hactive (checkLayer_keyframe hk ?_ ?_))
      · rw [hfailed]
        intro h0
        obtain ⟨hts, h0⟩ := hb.failed 0 h0
        exact hzero hts h0
      · intro hns
        rwa [htarget hns]

end

lemma preparePacket_judged (s : LayerScheduler) (hsid : desc.sid < 8) :
    let r := s.preparePacket desc desc.isKeyframe
    Judged s desc r.1 r.2 := by
  set s1 := s.beginPicture desc.rtpTimestamp
  have hb := beginPicture_begins s desc.rtpTimestamp
  obtain ⟨hsame, -, -⟩ := checkSequence_spec s1 desc desc.isKeyframe
  have hq := checkSequence_sequenced s1 desc
  unfold preparePacket
  rw [if_neg (by omega)]
  generalize s1.checkSequence desc desc.isKeyframe = q at *
  obtain ⟨q, ok⟩ := q
  cases ok with
  | false => exact judged_gap hb hq hsame _
  | true => exact judged_passed hb hq hsame

/-- **One commit**, as far as gaps are concerned. -/
structure Closes (s : LayerScheduler) (d : Decision) (s' : LayerScheduler) : Prop where
  corrupted : s'.frameCorrupted = s.frameCorrupted
  closed : (d.keyframePacket && d.eBit) = true → s'.keyframeActive = false ∧
    (s'.needsKeyframe = false → s.keyframeActive = true ∨ d.startKeyframe = true)
  goesOn : (d.keyframePacket && d.eBit) = false → s'.needsKeyframe = s.needsKeyframe ∧
    s'.keyframeActive = (s.keyframeActive || d.startKeyframe)

section

variable (s : LayerScheduler)

variable (d : Decision)

lemma commitFrameEnd_closes : let s' := s.commitFrameEnd d
    s'.frameCorrupted = s.frameCorrupted ∧
    ((d.keyframePacket && d.eBit) → s'.keyframeActive = false ∧
      (s'.needsKeyframe = false → s.keyframeActive)) ∧
    ((d.keyframePacket && d.eBit) = false → s'.needsKeyframe = s.needsKeyframe ∧
      s'.keyframeActive = s.keyframeActive) := by
  unfold commitFrameEnd
  dsimp only
  cases hkey : d.keyframePacket && d.eBit with
  | true =>
    rw [if_pos rfl]
    split_ifs <;> refine ⟨rfl, fun _ => ⟨rfl, fun hdone => ?_⟩, nofun⟩ <;>
    · simp only [Bool.not_eq_false', Bool.and_eq_true] at hdone
      exact hdone.1.1.1
  | false =>
    rw [if_neg Bool.noConfusion]
    split_ifs <;> exact ⟨rfl, nofun, fun _ => ⟨rfl, rfl⟩⟩

lemma commitPacer_corrupted : (s.commitPacer d).frameCorrupted = s.frameCorrupted := by
  unfold commitPacer
  split_ifs <;> rfl

lemma commitSpatial_corrupted : (s.commitSpatial d).frameCorrupted = s.frameCorrupted := by
  unfold commitSpatial
  split <;> rfl

lemma commitTemporal_corrupted : (s.commitTemporal d).frameCorrupted = s.frameCorrupted := by
  unfold commitTemporal
  split <;> rfl

end

lemma commitPacket_closes (hin : s.inPicture d) (hforward : d.shouldForward) :
    Closes s d (s.commitPacket d) := by
  set s1 := (s.commitStart d).commitPacer d
  have hp := untouched_commitPacer (s.commitStart d) d
  have hpc := commitPacer_corrupted (s.commitStart d) d
  have hstart : s1.keyframeActive = (s.keyframeActive || d.startKeyframe) := hp.active
  have hneeds : s1.needsKeyframe = s.needsKeyframe := hp.needs
  obtain ⟨hfc, hclosed, hgoesOn⟩ := commitFrameEnd_closes s1 d
  have hs := untouched_commitSpatial (s1.commitFrameEnd d) d
  have hsc := commitSpatial_corrupted (s1.commitFrameEnd d) d
  have ht := untouched_commitTemporal
    ((s1.commitFrameEnd d).commitSpatial d) d
  have htc := commitTemporal_corrupted
    ((s1.commitFrameEnd d).commitSpatial d) d
  unfold commitPacket
  rw [hforward, hin, if_neg (by simp)]
  have hactive := ht.active.trans hs.active
  have hend := ht.needs.trans hs.needs
  refine ⟨htc.trans (hsc.trans (hfc.trans hpc)), ?_, ?_⟩
  · intro hkey
    rw [hactive, hend]
    refine ⟨(hclosed hkey).1, fun hdone => ?_⟩
    have := (hclosed hkey).2 hdone
    rwa [hstart, Bool.or_eq_true] at this
  · intro hkey
    rw [hactive, hend]
    exact ⟨(hgoesOn hkey).1.trans hneeds, (hgoesOn hkey).2.trans hstart⟩

/-- **One rejection**, as far as gaps are concerned: that of a screen's packet, of a keyframe's
start or of layer 0 of a keyframe in progress asks for a keyframe. -/
structure Refuses (s : LayerScheduler) (d : Decision) (s' : LayerScheduler) : Prop where
  corrupted : s.frameCorrupted = true → s'.frameCorrupted = true
  needs : s'.needsKeyframe = false → s.needsKeyframe = false ∧ d.keyframePacket = false ∧
    s.source ≠ .screen ∧ s'.keyframeActive = s.keyframeActive
  active : s'.keyframeActive = true → s.keyframeActive = true ∧
    (s.keyframeTimestamp = d.rtpTimestamp → d.sid ≠ 0)

lemma rejectPacket_refuses (hin : s.inPicture d) : Refuses s d (s.rejectPacket d) := by
  unfold rejectPacket
  rw [hin, if_neg (by simp)]
  constructor
  · intro h
    rw [h, Bool.true_or]
  · intro h
    simp only [Bool.or_eq_false_iff] at h
    obtain ⟨⟨hneeds, hpacket, hkey⟩, hbreaks⟩ := h
    refine ⟨hneeds, hpacket, ?_, ?_⟩
    · intro hscreen
      simp [rejectBreaks, hscreen] at hbreaks
    · dsimp only
      rw [hpacket, hkey, Bool.or_false, Bool.not_false, Bool.and_true]
  · intro h
    simp only [Bool.and_eq_true, Bool.not_eq_true', Bool.or_eq_false_iff] at h
    refine ⟨h.1, fun hts hsid => ?_⟩
    simp [h.1, hts, hsid] at h

end LayerScheduler

end MezonSfu.Svc
