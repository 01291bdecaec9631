import MezonSfu.SchedulerFrames
import MezonSfu.SchedulerSequence

/-!
Loss containment: what the layer scheduler forwards behind a gap in the source numbers.

The sequence check asks for a keyframe at every gap it sees. The start of a keyframe resets the
check, so that a gap in front of it is no longer seen; this is sound as long as the start is then
let through, or its rejection asks for a keyframe.
-/

namespace MezonSfu.Svc

open LayerScheduler List Runs

/-! ### The property -/

/-- The packets of a keyframe that was forwarded as a whole, from its start to its end, with what
was presented between them: all of layer 0 was forwarded, and the picture did not change. -/
def Whole (body : List Presented) : Prop :=
  (∃ x ∈ body.head?, x.desc.isKeyframe = true ∧
    ∀ y ∈ body, y.desc.rtpTimestamp = x.desc.rtpTimestamp ∧ (y.desc.sid = 0 → y.forwarded = true)) ∧
  ∃ x ∈ body.getLast?, x.desc.sid = 0 ∧ x.desc.eBit = true

instance : DecidablePred Whole := fun body => by
  unfold Whole
  exact inferInstance

def OpensWhole (l : List Presented) : Prop := ∃ body ∈ l.inits, Whole body

instance : DecidablePred OpensWhole := fun l => by
  unfold OpensWhole
  exact inferInstance

instance : DecidablePred Consecutive := fun l => by
  unfold Consecutive
  exact inferInstance

/-- Nothing is missing between the start of the last whole keyframe and this packet. -/
def Contained (front : List Presented) (desc : Descriptor) : Prop :=
  ∃ l ∈ front.tails, OpensWhole l ∧ (∀ l' ∈ l.tails, OpensWhole l' → l' = l) ∧
    Consecutive (l.map (·.desc.seq) ++ [desc.seq])

instance (front : List Presented) (desc : Descriptor) : Decidable (Contained front desc) := by
  unfold Contained
  exact inferInstance

/-- Every packet that was forwarded and belongs to no keyframe picture has the numbers behind it
without a gap, back to the start of the last whole keyframe. -/
def LossContained (log : List Presented) : Prop :=
  ∀ front x back, log = front ++ x :: back → x.forwarded = true →
    ¬ KeyframeBegun (front ++ [x]) x.desc.rtpTimestamp → Contained front x.desc

/-- A whole keyframe with no gap since; it need not be the last one. -/
def Reaches (log : List Presented) (seqs : List UInt16) : Prop :=
  ∃ l, l <:+ log ∧ OpensWhole l ∧ Consecutive (l.map (·.desc.seq) ++ seqs)

variable {desc : Descriptor} {l log : List Presented} {x : Presented} {seq : UInt16}
  {s s' : LayerScheduler} {w : World} {d : Decision} {r : Except Decision Decision}

lemma Reaches.contained {front : List Presented} (h : Reaches front [desc.seq]) :
    Contained front desc := by
  obtain ⟨l, hl, hopens, hseq⟩ := h
  -- the shortest such list starts with the last whole keyframe
  induction hn : l.length using Nat.strong_induction_on generalizing l with
  | _ n ih =>
    by_cases hlast : ∀ l' ∈ l.tails, OpensWhole l' → l' = l
    · exact ⟨l, (mem_tails _ _).2 hl, hopens, hlast, hseq⟩
    push Not at hlast
    obtain ⟨l', hmem, hopens', hne⟩ := hlast
    have hsuffix : l' <:+ l := (mem_tails _ _).1 hmem
    have hlt : l'.length < n := by
      have hle := hsuffix.length_le
      have hneq : l'.length ≠ l.length := fun he => hne (hsuffix.eq_of_length he)
      omega
    have hchain : Consecutive (l'.map (·.desc.seq) ++ [desc.seq]) := by
      obtain ⟨t, rfl⟩ := hsuffix
      rw [map_append, append_assoc] at hseq
      exact (isChain_append.1 hseq).2.1
    exact ih _ hlt l' (hsuffix.trans hl) hopens' hchain rfl

lemma OpensWhole.append (h : OpensWhole l) (m : List Presented) : OpensWhole (l ++ m) := by
  obtain ⟨body, hbody, hwhole⟩ := h
  exact ⟨body, (mem_inits _ _).2 (((mem_inits _ _).1 hbody).trans (prefix_append l m)), hwhole⟩

lemma Reaches.concat (h : Reaches log [x.desc.seq]) : Reaches (log ++ [x]) [] := by
  obtain ⟨l, ⟨t, rfl⟩, hopens, hseq⟩ := h
  refine ⟨l ++ [x], ⟨t, by rw [append_assoc]⟩, hopens.append _, ?_⟩
  rwa [append_nil, map_append]

lemma consecutive_next (hl : l <:+ log) (hne : l ≠ []) (hseq : Consecutive (l.map (·.desc.seq)))
    (hnext : ∃ x ∈ log.getLast?, seq = x.desc.seq + 1) :
    Consecutive (l.map (·.desc.seq) ++ [seq]) := by
  obtain ⟨x, hx, rfl⟩ := hnext
  obtain ⟨t, rfl⟩ := hl
  rw [List.getLast?_append_of_ne_nil _ hne] at hx
  refine List.IsChain.append hseq (.singleton _) ?_
  rintro n hn m ⟨⟩
  rw [List.getLast?_map, hx] at hn
  cases hn
  rfl

lemma OpensWhole.ne_nil (h : OpensWhole l) : l ≠ [] := by
  rintro rfl
  obtain ⟨body, hbody, ⟨x, hx, -⟩, -⟩ := h
  rw [prefix_nil.1 ((mem_inits _ _).1 hbody)] at hx
  cases hx

lemma Reaches.next (h : Reaches log []) (hnext : ∃ x ∈ log.getLast?, seq = x.desc.seq + 1) :
    Reaches log [seq] := by
  obtain ⟨l, hl, hopens, hseq⟩ := h
  rw [append_nil] at hseq
  exact ⟨l, hl, hopens, consecutive_next hl hopens.ne_nil hseq hnext⟩

lemma lossContained_nil : LossContained [] := by
  intro front x back h
  cases front <;> cases h

lemma LossContained.concat (h : LossContained log)
    (hx : x.forwarded → Reaches log [x.desc.seq] ∨
      KeyframeBegun (log ++ [x]) x.desc.rtpTimestamp) : LossContained (log ++ [x]) := by
  intro front y back heq hf hnot
  rcases eq_nil_or_concat back with rfl | ⟨back, z, rfl⟩
  · obtain ⟨rfl, hxy⟩ := append_inj' heq rfl
    obtain rfl := (List.cons.inj hxy).1
    exact ((hx hf).resolve_right hnot).contained
  · have hsplit : log ++ [x] = (front ++ y :: back) ++ [z] := by simpa using heq
    exact h front y back (append_inj' hsplit rfl).1 hf hnot

/-! ### The invariant -/

/-- `l` is what was presented since the start of the keyframe in progress. -/
structure InKeyframe (s : LayerScheduler) (l : List Presented) : Prop where
  keyframe : s.keyframeTimestamp = s.pictureTimestamp
  start : ∃ x ∈ l.head?, x.desc.isKeyframe = true
  packets : ∀ y ∈ l, y.desc.rtpTimestamp = s.pictureTimestamp ∧
    (y.desc.sid = 0 → y.forwarded = true)

/-- No packet is prepared: the numbers behind a scheduler that forwards inter pictures, and those
of the keyframe in progress, have no gap; or a gap was seen and a keyframe is asked for. -/
structure Idle (s : LayerScheduler) (log : List Presented) : Prop where
  expected : s.seqInitialized = true → ∃ x ∈ log.getLast?, s.expectedSeq = x.desc.seq + 1
  clean : s.needsKeyframe = false → s.keyframeActive = false → Reaches log []
  active : s.keyframeActive = true → ∃ l, l <:+ log ∧ InKeyframe s l ∧
    (Consecutive (l.map (·.desc.seq)) ∨ (s.frameCorrupted = true ∧ s.needsKeyframe = true))

/-- A packet that is let through: it belongs to a keyframe picture, or nothing is missing behind
it. -/
structure Sound (s : LayerScheduler) (log : List Presented) (desc : Descriptor) (d : Decision) :
    Prop where
  forward : d.shouldForward = true
  bits : KeyframeBits desc d
  corrupted : s.frameCorrupted = false
  reaches : Reaches log [desc.seq] ∨ KeyframeBegun (log ++ [⟨desc, true⟩]) desc.rtpTimestamp

/-- The rejection of the packet asks for a keyframe, or the packet starts one. -/
def Asks (s : LayerScheduler) (r : Except Decision Decision) : Prop :=
  Starts r ∨ (s.source = .screen ∧ ∃ d, r = .error d)

structure Held (s : LayerScheduler) (log : List Presented) (desc : Descriptor)
    (r : Except Decision Decision) : Prop where
  sid : desc.sid < 8
  valid : s.pictureValid = true
  timestamp : s.pictureTimestamp = desc.rtpTimestamp
  concerns : Concerns desc r
  expected : s.seqInitialized = true → s.expectedSeq = desc.seq + 1
  sound : ∀ d, r = .ok d → Sound s log desc d
  clean : s.needsKeyframe = false → s.keyframeActive = false → Reaches log [desc.seq] ∨ Asks s r
  active : s.keyframeActive = true → ∃ l, l <:+ log ∧ InKeyframe s l ∧
    (Consecutive (l.map (·.desc.seq) ++ [desc.seq]) ∨
      (s.frameCorrupted = true ∧ s.needsKeyframe = true) ∨ desc.isKeyframe = true ∨
      (desc.sid = 0 ∧ ∃ d, r = .error d))

structure Contains (w : World) : Prop where
  log : LossContained w.log
  fresh : w.sched.seqInitialized = false →
    w.sched.needsKeyframe = true ∧ w.sched.keyframeActive = false
  idle : w.pending = none → Idle w.sched w.log
  held : ∀ desc r, w.pending = some (desc, r) → Held w.sched w.log desc r

lemma InKeyframe.same (h : InKeyframe s l) (hs : SamePicture s s') : InKeyframe s' l := by
  refine ⟨?_, h.start, ?_⟩
  · rw [hs.keyframe, hs.timestamp]
    exact h.keyframe
  · rw [hs.timestamp]
    exact h.packets

lemma Idle.aligned (h : Idle s log) (ha : Aligned s s') : Idle s' log := by
  constructor
  · rw [ha.seqInitialized, ha.expected]
    exact h.expected
  · rw [ha.needs, ha.active]
    exact h.clean
  · rw [ha.active, ha.corrupted, ha.needs]
    intro hact
    obtain ⟨l, hl, hin, hseq⟩ := h.active hact
    exact ⟨l, hl, hin.same ha.toSamePicture, hseq⟩

lemma Contains.aligned (h : Contains w) (ha : Aligned w.sched s) :
    Contains { w with sched := s } := by
  refine ⟨h.log, ?_, fun hp => (h.idle hp).aligned ha, ?_⟩
  · rw [ha.seqInitialized, ha.needs, ha.active]
    exact h.fresh
  intro desc r hp
  have hh := h.held desc r hp
  refine ⟨hh.sid, ha.valid.trans hh.valid, ha.timestamp.trans hh.timestamp, hh.concerns,
    ?_, ?_, ?_, ?_⟩
  · rw [ha.seqInitialized, ha.expected]
    exact hh.expected
  · intro d hd
    have hs := hh.sound d hd
    exact ⟨hs.forward, hs.bits, ha.corrupted.trans hs.corrupted, hs.reaches⟩
  · rw [ha.needs, ha.active]
    unfold Asks
    rw [ha.source]
    exact hh.clean
  · rw [ha.active, ha.corrupted, ha.needs]
    intro hact
    obtain ⟨l, hl, hin, hseq⟩ := hh.active hact
    exact ⟨l, hl, hin.same ha.toSamePicture, hseq⟩

lemma Contains.reset (h : Contains w) : Contains { w with sched := w.sched.resetForKeyframe } := by
  refine ⟨h.log, fun _ => ⟨rfl, rfl⟩, fun _ => ⟨nofun, nofun, nofun⟩, ?_⟩
  intro desc r hp
  have hh := h.held desc r hp
  refine ⟨hh.sid, hh.valid, hh.timestamp, hh.concerns, nofun, ?_, nofun, nofun⟩
  intro d hd
  have hs := hh.sound d hd
  exact ⟨hs.forward, hs.bits, rfl, hs.reaches⟩

/-! ### Presenting a packet -/

/-- Every preparation is followed by its commit or rejection; a spatial layer is a field of three
bits. -/
def Paired (w : World) : Op → Prop
  | .present desc => w.pending = none ∧ desc.sid < 8
  | _ => True

instance (w : World) : (op : Op) → Decidable (Paired w op)
  | .present _ => inferInstanceAs (Decidable (_ ∧ _))
  | .settle _ | .setBitrate _ _ | .resetForKeyframe => isTrue trivial

/-- A camera's keyframe start without the expected number is taken by the layer check, or a
keyframe is already needed; and no higher layer starts a frame behind a gap in the picture of a
keyframe in progress. -/
def Visible (s : LayerScheduler) (desc : Descriptor) : Prop :=
  (desc.isKeyframe = true → desc.seq ≠ s.expectedSeq → s.needsKeyframe = false →
    s.source ≠ .screen → s.TakesKeyframe desc) ∧
  (desc.bBit = true → desc.sid ≠ 0 → s.keyframeActive = true → s.frameCorrupted = true →
    s.pictureTimestamp ≠ desc.rtpTimestamp)

instance (s : LayerScheduler) (desc : Descriptor) : Decidable (Visible s desc) := by
  unfold Visible
  exact inferInstance

/-- The condition on a step of a run: no gap is lost sight of. -/
def GapsVisible (w : World) (op : Op) : Prop :=
  Paired w op ∧ ∀ desc, op = .present desc → Visible w.sched desc

instance (w : World) : (op : Op) → Decidable (GapsVisible w op)
  | .present desc =>
    decidable_of_iff (Paired w (.present desc) ∧ Visible w.sched desc)
      (and_congr_right fun _ => ⟨fun h _ hd => Op.present.inj hd ▸ h, fun h => h desc rfl⟩)
  | .settle _ | .setBitrate _ _ | .resetForKeyframe => isTrue ⟨trivial, nofun⟩

lemma InKeyframe.begun (h : InKeyframe s l) (hl : l <:+ log) :
    KeyframeBegun log s.pictureTimestamp := by
  obtain ⟨t, rfl⟩ := hl
  obtain ⟨x, hx, hkey⟩ := h.start
  obtain ⟨rest, rfl⟩ := List.head?_eq_some_iff.1 hx
  have hsid : x.desc.sid = 0 := by
    simp only [Descriptor.isKeyframe, Bool.and_eq_true, beq_iff_eq] at hkey
    exact hkey.2
  exact ⟨t, x, rest, rfl, hkey, (h.packets x (.head _)).2 hsid, fun y hy => (h.packets y hy).1⟩

lemma keyframeBegun_start (log : List Presented) (hkey : desc.isKeyframe) :
    KeyframeBegun (log ++ [⟨desc, true⟩]) desc.rtpTimestamp := by
  exact ⟨log, ⟨desc, true⟩, [], rfl, hkey, rfl, forall_mem_singleton.2 rfl⟩

section

/-- A preparation that leaves no keyframe needed: nothing is missing, or it asks for one. -/
lemma Idle.clean_prepared (h : Idle s log) (hj : Judged s desc s' r)
    (hfresh : s.seqInitialized = false → s.needsKeyframe ∧ s.keyframeActive = false)
    (hvisible : Visible s desc) (hneeds : s'.needsKeyframe = false)
    (hactive : s'.keyframeActive = false) : Reaches log [desc.seq] ∨ Asks s' r := by
  obtain ⟨hold, hclear⟩ := hj.needs hneeds
  have hinactive : s.keyframeActive = false := by
    by_contra hact
    rw [Bool.not_eq_false] at hact
    rw [hj.active hneeds hact] at hactive
    cases hactive
  have hinit : s.seqInitialized := by
    by_contra hnot
    rw [(hfresh (by simpa using hnot)).1] at hold
    cases hold
  have hreach := h.clean hold hinactive
  by_cases hseq : desc.seq = s.expectedSeq
  · exact .inl (hreach.next (hseq ▸ h.expected hinit))
  · cases hkey : desc.isKeyframe with
    | false => exact absurd (hj.next hclear hkey hinit) hseq
    | true => exact .inr (hj.starts hkey hneeds hactive (hvisible.1 hkey hseq hold))

lemma Idle.active_prepared (h : Idle s log) (hj : Judged s desc s' r) (hp : Prepared s desc s' r)
    (hfresh : s.seqInitialized = false → s.needsKeyframe ∧ s.keyframeActive = false)
    (hvisible : Visible s desc) (hactive : s'.keyframeActive) :
    ∃ l, l <:+ log ∧ InKeyframe s' l ∧ (Consecutive (l.map (·.desc.seq) ++ [desc.seq]) ∨
      (s'.frameCorrupted ∧ s'.needsKeyframe) ∨ desc.isKeyframe ∨
      (desc.sid = 0 ∧ ∃ d, r = .error d)) := by
  obtain ⟨hold, hts, hneeds⟩ := hj.same hactive
  obtain ⟨l, hl, hin, hseq⟩ := h.active hold
  have hsame : SamePicture s s' := by
    have hpicture := hp.picture
    rcases beginPicture_cases s desc.rtpTimestamp with ⟨-, -, heq⟩ | ⟨-, -, hnot⟩
    · rwa [heq] at hpicture
    · rw [hpicture.active, hnot] at hactive
      cases hactive
  refine ⟨l, hl, hin.same hsame, ?_⟩
  have hinit : s.seqInitialized := by
    by_contra hnot
    rw [(hfresh (by simpa using hnot)).2] at hold
    cases hold
  cases hkey : desc.isKeyframe with
  | true => exact .inr (.inr (.inl rfl))
  | false =>
    cases hclear : s'.frameCorrupted with
    | true =>
      refine .inr (.inl ⟨rfl, ?_⟩)
      by_contra hnot
      rw [(hj.needs (by simpa using hnot)).2] at hclear
      cases hclear
    | false =>
      rcases hseq with hseq | ⟨hcorrupted, hneeded⟩
      · left
        have hne : l ≠ [] := by
          rintro rfl
          obtain ⟨x, hx, -⟩ := hin.start
          cases hx
        apply consecutive_next hl hne hseq
        rw [hj.next hclear hkey hinit]
        exact h.expected hinit
      · -- the gap was seen; only a frame start clears the flag, and it is turned down
        right; right; right
        have hb : desc.bBit := by
          by_contra hnot
          rw [hj.passed hclear hactive (by simpa using hnot)] at hcorrupted
          cases hcorrupted
        have hsid : desc.sid = 0 := by
          by_contra hnot
          exact hvisible.2 hb hnot hold hcorrupted hts
        refine ⟨hsid, ?_⟩
        cases r with
        | error d => exact ⟨d, rfl⟩
        | ok d =>
          rcases (hp.passes d rfl).gate (hneeds hneeded) with hk | ⟨-, -, -, hpbit⟩
          · rw [hk] at hkey
            cases hkey
          · simp [Descriptor.isKeyframe, hb, hpbit, hsid] at hkey

lemma Held.reaches (hp : Prepared s desc s' r) (hts : s'.pictureTimestamp = desc.rtpTimestamp)
    (hclean : s'.needsKeyframe = false → s'.keyframeActive = false →
      Reaches log [desc.seq] ∨ Asks s' r)
    (hactive : s'.keyframeActive → ∃ l, l <:+ log ∧ InKeyframe s' l) (hd : r = .ok d) :
    Reaches log [desc.seq] ∨ KeyframeBegun (log ++ [⟨desc, true⟩]) desc.rtpTimestamp := by
  have hpass := hp.passes d hd
  have hbegun : s'.keyframeActive →
      KeyframeBegun (log ++ [⟨desc, true⟩]) desc.rtpTimestamp := by
    intro hact
    obtain ⟨l, hl, hin⟩ := hactive hact
    have := hin.begun hl
    rw [hts] at this
    exact this.concat rfl
  cases hneeds : s'.needsKeyframe with
  | true =>
    rcases hpass.gate hneeds with hkey | ⟨hact, -⟩
    · exact .inr (keyframeBegun_start log hkey)
    · exact .inr (hbegun hact)
  | false =>
    cases hact : s'.keyframeActive with
    | true => exact .inr (hbegun hact)
    | false =>
      rcases hclean hneeds hact with h | h | ⟨-, e, he⟩
      · exact .inl h
      · subst hd
        exact .inr (keyframeBegun_start log (hpass.bits.start h.1).1)
      · rw [hd] at he
        cases he

end

lemma Contains.present (h : Contains w) (hc : GapsVisible w (.present desc)) :
    Contains (w.present desc) := by
  obtain ⟨⟨hnone, hsid⟩, hvisible⟩ := hc
  have ha := aligned_forStream w.sched
  have hidle := (h.idle hnone).aligned ha
  have hfresh : (w.sched.forStream w.sched.source).seqInitialized = false →
      (w.sched.forStream w.sched.source).needsKeyframe ∧
        (w.sched.forStream w.sched.source).keyframeActive = false := by
    rw [ha.seqInitialized, ha.needs, ha.active]
    exact h.fresh
  have hvis : Visible (w.sched.forStream w.sched.source) desc := by
    obtain ⟨h1, h2⟩ := hvisible desc rfl
    unfold Visible TakesKeyframe
    rw [ha.expected, ha.needs, ha.source, ha.active, ha.corrupted, ha.timestamp, ha.failed]
    refine ⟨fun hk hseq hneeds hsource => ?_, h2⟩
    rw [forStream_targetTid hsource]
    exact h1 hk hseq hneeds hsource
  have hj := preparePacket_judged (w.sched.forStream w.sched.source) hsid
  have hp := preparePacket_spec (w.sched.forStream w.sched.source) hsid
  obtain ⟨hvalid, htimestamp⟩ :=
    beginPicture_picture (w.sched.forStream w.sched.source) desc.rtpTimestamp
  unfold World.present
  generalize w.sched.forStream w.sched.source = s at *
  generalize s.preparePacket desc desc.isKeyframe = q at *
  obtain ⟨s', r⟩ := q
  have hclean := hidle.clean_prepared hj hfresh hvis
  have hactive := hidle.active_prepared hj hp hfresh hvis
  have hts : s'.pictureTimestamp = desc.rtpTimestamp := hp.picture.timestamp.trans htimestamp
  refine ⟨h.log, ?_, nofun, ?_⟩
  · intro hinit
    obtain ⟨hneeds, hinactive⟩ := hfresh (hj.fresh hinit)
    refine ⟨hp.needs hneeds, ?_⟩
    by_contra hact
    rw [(hj.same (by simpa using hact)).1] at hinactive
    cases hinactive
  · rintro desc' r' ⟨⟩
    refine ⟨hsid, hp.picture.valid.trans hvalid, hts, hp.concerns, fun _ => hp.expected, ?_,
      hclean, hactive⟩
    intro d hd
    have hin : s'.keyframeActive → ∃ l, l <:+ w.log ∧ InKeyframe s' l := by
      intro hact
      obtain ⟨l, hl, hin, -⟩ := hactive hact
      exact ⟨l, hl, hin⟩
    exact ⟨(hp.passes d hd).forward, (hp.passes d hd).bits, hj.ok d hd,
      Held.reaches hp hts hclean hin hd⟩

lemma Held.inPicture (h : Held s log desc r) (hd : About desc d) : s.inPicture d := by
  unfold LayerScheduler.inPicture
  rw [h.valid, h.timestamp, hd.timestamp, hd.sid]
  simp [h.sid]

lemma InKeyframe.concat (h : InKeyframe s l)
    (hkeyframe : s'.keyframeTimestamp = s.keyframeTimestamp)
    (htimestamp : s'.pictureTimestamp = s.pictureTimestamp)
    (hts : x.desc.rtpTimestamp = s.pictureTimestamp) (hx : x.desc.sid = 0 → x.forwarded) :
    InKeyframe s' (l ++ [x]) := by
  constructor
  · rw [hkeyframe, htimestamp]
    exact h.keyframe
  · obtain ⟨y, hy, hkey⟩ := h.start
    refine ⟨y, ?_, hkey⟩
    rw [List.head?_append, hy]
    rfl
  · rw [htimestamp]
    exact forall_mem_append.2 ⟨h.packets, forall_mem_singleton.2 ⟨hts, hx⟩⟩

lemma Contains.reject (h : Contains w) (hh : Held w.sched w.log desc r) (hd : About desc d)
    (hstarts : Asks w.sched r → d.keyframePacket ∨ w.sched.source = .screen) :
    Contains ⟨w.sched.rejectPacket d, none, w.log ++ [⟨desc, false⟩]⟩ := by
  have hin := hh.inPicture hd
  have hr := rejectPacket_spec hin
  have hf := rejectPacket_refuses hin
  have hlog : LossContained (w.log ++ [⟨desc, false⟩]) :=
    h.log.concat fun hfalse => absurd hfalse Bool.false_ne_true
  refine ⟨hlog, ?_, fun _ => ⟨?_, ?_, ?_⟩, fun _ _ hp => by cases hp⟩
  · intro hinit
    obtain ⟨hneeds, hinactive⟩ := h.fresh (hr.seqInitialized ▸ hinit)
    refine ⟨hr.needs hneeds, ?_⟩
    by_contra hact
    rw [hr.active (by simpa using hact)] at hinactive
    cases hinactive
  · intro hinit
    refine ⟨⟨desc, false⟩, by simp, ?_⟩
    rw [hr.expected]
    exact hh.expected (hr.seqInitialized ▸ hinit)
  · intro hneeds hactive
    obtain ⟨hold, hpacket, hsource, hsame⟩ := hf.needs hneeds
    rcases hh.clean hold (hsame ▸ hactive) with hreach | hasks
    · exact hreach.concat
    · rcases hstarts hasks with hk | hs
      · rw [hk] at hpacket
        cases hpacket
      · exact absurd hs hsource
  · intro hact
    obtain ⟨hold, hsid⟩ := hf.active hact
    obtain ⟨l, hl, hk, hseq⟩ := hh.active hold
    have hne : desc.sid ≠ 0 := by
      rw [← hd.sid]
      apply hsid
      rw [hk.keyframe, hh.timestamp, hd.timestamp]
    refine ⟨l ++ [⟨desc, false⟩], suffix_append_self_iff.2 hl,
      hk.concat hr.keyframe hr.timestamp hh.timestamp.symm fun h0 => absurd h0 hne, ?_⟩
    rcases hseq with hseq | ⟨hc, hn⟩ | hkey | ⟨h0, -⟩
    · left
      rwa [map_append]
    · exact .inr ⟨hf.corrupted hc, hr.needs hn⟩
    · simp only [Descriptor.isKeyframe, Bool.and_eq_true, beq_iff_eq] at hkey
      exact absurd hkey.2 hne
    · exact absurd h0 hne

lemma Held.inKeyframe (hh : Held s log desc (.ok d)) (hc : Committed s d s') (hd : About desc d)
    (hact : s.keyframeActive ∨ d.startKeyframe) :
    ∃ l, l <:+ log ++ [⟨desc, true⟩] ∧ InKeyframe s' l ∧ Consecutive (l.map (·.desc.seq)) ∧
      ∃ x ∈ l.getLast?, x.desc = desc := by
  have hs := hh.sound d rfl
  by_cases hkey : desc.isKeyframe
  · refine ⟨[⟨desc, true⟩], suffix_append _ _, ⟨?_, ⟨_, rfl, hkey⟩, ?_⟩, .singleton _, _, rfl, rfl⟩
    · rw [hc.keyframe, hc.timestamp]
      split
      · rw [hd.timestamp, hh.timestamp]
      · rename_i hstart
        obtain ⟨l, -, hk, -⟩ := hh.active (hact.resolve_right hstart)
        exact hk.keyframe
    · intro y hy
      rw [mem_singleton.1 hy, hc.timestamp]
      exact ⟨hh.timestamp.symm, fun _ => rfl⟩
  · have hstart : d.startKeyframe ≠ true := fun h => hkey (hs.bits.start h).1
    obtain ⟨l, hl, hk, hseq⟩ := hh.active (hact.resolve_right hstart)
    refine ⟨l ++ [⟨desc, true⟩], suffix_append_self_iff.2 hl, ?_, ?_, ⟨desc, true⟩, by simp, rfl⟩
    · apply hk.concat _ hc.timestamp hh.timestamp.symm fun _ => rfl
      rw [hc.keyframe, if_neg hstart]
    rw [map_append]
    rcases hseq with hseq | ⟨hcorrupted, -⟩ | hk' | ⟨-, e, he⟩
    · exact hseq
    · rw [hs.corrupted] at hcorrupted
      cases hcorrupted
    · exact absurd hk' hkey
    · cases he

lemma InKeyframe.opensWhole (h : InKeyframe s l)
    (hlast : ∃ x ∈ l.getLast?, x.desc.sid = 0 ∧ x.desc.eBit) : OpensWhole l := by
  obtain ⟨x, hx, hkey⟩ := h.start
  refine ⟨l, (mem_inits _ _).2 (prefix_refl l), ⟨x, hx, hkey, ?_⟩, hlast⟩
  intro y hy
  rw [(h.packets x (mem_of_head? hx)).1]
  exact h.packets y hy

lemma Contains.commit (h : Contains w) (hh : Held w.sched w.log desc (.ok d)) :
    Contains ⟨w.sched.commitPacket d, none, w.log ++ [⟨desc, true⟩]⟩ := by
  have hd : About desc d := hh.concerns
  have hs := hh.sound d rfl
  have hc := commitPacket_spec (hh.inPicture hd) hs.forward
  have hl := commitPacket_closes (hh.inPicture hd) hs.forward
  refine ⟨h.log.concat fun _ => hs.reaches, ?_, fun _ => ⟨?_, ?_, ?_⟩, fun _ _ hp => by cases hp⟩
  · intro hinit
    rw [hc.seqInitialized] at hinit
    cases hinit
  · intro _
    refine ⟨⟨desc, true⟩, by simp, ?_⟩
    rw [hc.expected, hd.seq]
  · intro hneeds hactive
    cases hkey : d.keyframePacket && d.eBit with
    | true =>
      obtain ⟨-, hmet⟩ := hl.closed hkey
      rw [Bool.and_eq_true] at hkey
      obtain ⟨l, hsuffix, hin, hseq, x, hx, hdesc⟩ := hh.inKeyframe hc hd (hmet hneeds)
      refine ⟨l, hsuffix, hin.opensWhole ⟨x, hx, ?_, ?_⟩, by rwa [append_nil]⟩
      · rw [hdesc]
        exact (hs.bits.packet hkey.1).1
      · rw [hdesc, ← hd.eBit]
        exact hkey.2
    | false =>
      obtain ⟨hsame, hact⟩ := hl.goesOn hkey
      rw [hact, Bool.or_eq_false_iff] at hactive
      rcases hh.clean (hsame ▸ hneeds) hactive.1 with hreach | hstarts | ⟨-, e, he⟩
      · exact hreach.concat
      · rw [hstarts.1] at hactive
        cases hactive.2
      · cases he
  · intro hact
    obtain ⟨l, hsuffix, hin, hseq, -⟩ := hh.inKeyframe hc hd (hc.active hact)
    exact ⟨l, hsuffix, hin, .inl hseq⟩

lemma contains_init (source : MediaKind) : Contains (World.init source) := by
  have hs : (LayerScheduler.init.forStream source).seqInitialized = false ∧
      (LayerScheduler.init.forStream source).needsKeyframe ∧
      (LayerScheduler.init.forStream source).keyframeActive = false := by
    unfold forStream
    split <;> exact ⟨rfl, rfl, rfl⟩
  obtain ⟨hinit, hneeds, hactive⟩ := hs
  refine ⟨lossContained_nil, fun _ => ⟨hneeds, hactive⟩, fun _ => ⟨?_, ?_, ?_⟩,
    fun _ _ hp => by cases hp⟩
  · exact fun h => absurd (hinit.symm.trans h) Bool.false_ne_true
  · exact fun h => absurd (hneeds.symm.trans h) Bool.noConfusion
  · exact fun h => absurd (hactive.symm.trans h) Bool.false_ne_true

lemma contains_step (h : Contains w) (op : Op) (hc : GapsVisible w op) : Contains (step w op) := by
  cases op with
  | present desc => exact h.present hc
  | setBitrate bitrateBps now => exact h.aligned (aligned_setBitrate _ _ _)
  | resetForKeyframe => exact h.reset
  | settle admitted =>
    change Contains (w.settle admitted)
    unfold World.settle
    rcases hp : w.pending with _ | ⟨desc, d | d⟩
    · exact h
    · have hh := h.held desc _ hp
      refine h.reject hh hh.concerns ?_
      rintro (hstarts | ⟨hscreen, -⟩)
      · exact .inl hstarts.2
      · exact .inr hscreen
    · have hh := h.held desc _ hp
      cases admitted with
      | true => exact h.commit hh
      | false =>
        refine h.reject hh hh.concerns ?_
        rintro (hstarts | ⟨hscreen, -⟩)
        · exact .inl hstarts.2
        · exact .inr hscreen

/-- **Loss containment.** In any run in which no gap in front of a keyframe's start is lost sight
of: a packet that is forwarded and belongs to no keyframe picture has no gap behind it, back to
the start of the last whole keyframe. -/
theorem loss_containment (source : MediaKind) (ops : List Op)
    (hc : Along step GapsVisible (World.init source) ops) :
    LossContained (run step (World.init source) ops).log :=
  (run_inv_along step (I := Contains) (fun _ op h hc => contains_step h op hc)
    (contains_init source) hc).log

def picturePacket (timestamp : UInt32) (seq : UInt16) (inter b e : Bool) : Descriptor :=
  ⟨timestamp, seq, 0, 0, inter, false, false, b, e, false⟩

/-- A keyframe and two inter pictures, the second behind a loss, then a keyframe and an inter
picture. -/
def recovered : List Op :=
  [.present (picturePacket 0 9 false true true), .settle true,
    .present (picturePacket 3000 10 true true true), .settle true,
    .present (picturePacket 6000 12 true true true), .settle true,
    .present (picturePacket 9000 13 false true true), .settle true,
    .present (picturePacket 12000 14 true true true), .settle true]

theorem loss_containment_recovered :
    let w := run step (World.init .video) recovered
    w.log.map (·.forwarded) = [true, true, false, true, true] ∧ LossContained w.log := by
  have hc : Along step GapsVisible (World.init .video) recovered := by decide +kernel
  exact ⟨by decide +kernel, loss_containment .video recovered hc⟩

/-- A keyframe; the target falls to temporal layer 0; behind a loss a keyframe of temporal layer 1,
which is above the target, and an inter picture of layer 0. -/
def hiddenGap : List Op :=
  [.present (picturePacket 0 9 false true true), .settle true, .setBitrate 0 1,
    .present { picturePacket 3000 20 false true true with tid := 1 }, .settle true,
    .present (picturePacket 6000 21 true true true), .settle true]

/-- A keyframe that misses packets between its start and its end, with two frames of a higher layer
between them, and an inter picture. -/
def hollowKeyframe : List Op :=
  [.present (picturePacket 0 9 false true false), .settle true,
    .present { picturePacket 0 14 false true true with sid := 1 }, .settle true,
    .present { picturePacket 0 15 false true true with sid := 1 }, .settle true,
    .present (picturePacket 0 16 false false true), .settle true,
    .present (picturePacket 3000 17 true true true), .settle true]

lemma not_keyframeBegun {timestamp : UInt32}
    (h : ∀ y ∈ log, y.desc.rtpTimestamp = timestamp → y.desc.isKeyframe = false) :
    ¬ KeyframeBegun log timestamp := by
  rintro ⟨before, start, rest, rfl, hkey, -, hts⟩
  rw [h start (by simp) (hts start (.head _))] at hkey
  cases hkey

/-- **A hidden gap.** In both runs every packet is settled before the next is presented, numbers are
missing behind the first packet, no keyframe starts behind the gap and is forwarded, and the last
packet, of an inter picture, is forwarded. -/
theorem hidden_gap_forwarded :
    let v := run step (World.init .video) hiddenGap
    let w := run step (World.init .screen) hollowKeyframe
    (Along step Paired (World.init .video) hiddenGap ∧ v.log.map (fun x => (x.desc.seq,
      x.forwarded)) = [(9, true), (20, false), (21, true)] ∧ ¬ LossContained v.log) ∧
    Along step Paired (World.init .screen) hollowKeyframe ∧
      w.log.map (fun x => (x.desc.seq, x.forwarded)) =
        [(9, true), (14, false), (15, false), (16, true), (17, true)] ∧
      ¬ LossContained w.log := by
  refine ⟨⟨by decide +kernel, by decide +kernel, ?_⟩, by decide +kernel, by decide +kernel, ?_⟩
  · intro h
    have hlog : (run step (World.init .video) hiddenGap).log =
        [⟨picturePacket 0 9 false true true, true⟩,
          ⟨{ picturePacket 3000 20 false true true with tid := 1 }, false⟩] ++
        ⟨picturePacket 6000 21 true true true, true⟩ :: [] := by decide +kernel
    have := h _ _ _ hlog rfl (not_keyframeBegun (by decide +kernel))
    revert this
    decide +kernel
  · intro h
    have hlog : (run step (World.init .screen) hollowKeyframe).log =
        [⟨picturePacket 0 9 false true false, true⟩,
          ⟨{ picturePacket 0 14 false true true with sid := 1 }, false⟩,
          ⟨{ picturePacket 0 15 false true true with sid := 1 }, false⟩,
          ⟨picturePacket 0 16 false false true, true⟩] ++
        ⟨picturePacket 3000 17 true true true, true⟩ :: [] := by decide +kernel
    have := h _ _ _ hlog rfl (not_keyframeBegun (by decide +kernel))
    revert this
    decide +kernel

end MezonSfu.Svc
