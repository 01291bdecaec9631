import MezonSfu.Runs
import MezonSfu.SchedulerPacket

/-!
The frames a layer scheduler lets through, over whole runs.

A run presents packets one after the other; between the preparation of a packet and its commit or
rejection, and between packets, the rate may be set and the egress path may ask for a keyframe.
The log of presented packets, with what became of each, is history.
-/

namespace MezonSfu.Svc

open LayerScheduler List Option Runs

/-! ### Runs -/

/-- A packet that was presented, and whether it was forwarded. -/
structure Presented where
  desc : Descriptor
  forwarded : Bool
deriving DecidableEq

/-- A scheduler, the packet that is prepared, and the log, which the program does not store. -/
structure World where
  sched : LayerScheduler
  pending : Option (Descriptor × Except Decision Decision)
  log : List Presented

def World.init (source : MediaKind) : World := ⟨LayerScheduler.init.forStream source, none, []⟩

inductive Op where
  | present (desc : Descriptor)
  | settle (admitted : Bool)
  | setBitrate (bitrateBps : ℕ) (now : ℤ)
  | resetForKeyframe
deriving DecidableEq

/-- The egress path looks the scheduler up and prepares the packet. -/
def World.present (w : World) (desc : Descriptor) : World :=
  let r := (w.sched.forStream w.sched.source).preparePacket desc desc.isKeyframe
  { w with sched := r.1, pending := some (desc, r.2) }

/-- The prepared packet is committed if it was let through and taken, and rejected otherwise. -/
def World.settle (w : World) (admitted : Bool) : World :=
  match w.pending with
  | none => w
  | some (desc, .error d) => ⟨w.sched.rejectPacket d, none, w.log ++ [⟨desc, false⟩]⟩
  | some (desc, .ok d) =>
    if admitted then ⟨w.sched.commitPacket d, none, w.log ++ [⟨desc, true⟩]⟩
    else ⟨w.sched.rejectPacket d, none, w.log ++ [⟨desc, false⟩]⟩

def step (w : World) : Op → World
  | .present desc => w.present desc
  | .settle admitted => w.settle admitted
  | .setBitrate bitrateBps now => { w with sched := w.sched.setBitrate bitrateBps now }
  | .resetForKeyframe => { w with sched := w.sched.resetForKeyframe }

/-- A packet is presented when the one before is settled, with a layer below 8, and not below
the layer of the packet before it if that has the same timestamp. -/
def Orderly (w : World) : Op → Prop
  | .present desc => w.pending = none ∧ desc.sid < 8 ∧
      ∀ x ∈ w.log.getLast?, x.desc.rtpTimestamp = desc.rtpTimestamp → x.desc.sid ≤ desc.sid
  | _ => True

instance (w : World) (op : Op) : Decidable (Orderly w op) := by
  cases op <;> (unfold Orderly; infer_instance)

/-! ### Frames in the log -/

/-- The packet belongs to the frame of `desc`. -/
def SameFrame (desc : Descriptor) (x : Presented) : Prop :=
  x.desc.rtpTimestamp = desc.rtpTimestamp ∧ x.desc.sid = desc.sid

/-- Every number is the successor of the one before. -/
def Consecutive (seqs : List UInt16) : Prop := seqs.IsChain fun a b => b = a + 1

/-- A packet goes on with a frame that is whole so far: since its start only packets of the frame
were presented, all were forwarded, and the numbers up to this packet are consecutive. -/
def Continues (front : List Presented) (desc : Descriptor) : Prop :=
  ∃ before start mid, front = before ++ start :: mid ∧ start.desc.bBit = true ∧
    (∀ y ∈ mid, y.desc.bBit = false) ∧
    (∀ y ∈ start :: mid, SameFrame desc y ∧ y.forwarded = true) ∧
    Consecutive ((start :: mid).map (·.desc.seq) ++ [desc.seq])

/-- Every forwarded packet that does not start a frame goes on with a whole one. -/
def Intact (log : List Presented) : Prop :=
  ∀ front x back, log = front ++ x :: back → x.forwarded = true → x.desc.bBit = false →
    Continues front x.desc

/-- What relates two packets that were presented one after the other. -/
def Follows (a b : Presented) : Prop :=
  (a.desc.rtpTimestamp = b.desc.rtpTimestamp → a.desc.sid ≤ b.desc.sid) ∧
    (b.forwarded = true → b.desc.bBit = false → b.desc.seq = a.desc.seq + 1)

lemma intact_nil : Intact [] := by
  intro front x back h
  cases front <;> cases h

variable {x : Presented} {l log pic : List Presented} {s s' : LayerScheduler} {w : World}
  {desc : Descriptor} {r : Except Decision Decision} {t : UInt32} {d : Decision}

lemma Intact.concat (h : Intact log)
    (hx : x.forwarded → x.desc.bBit = false → Continues log x.desc) :
    Intact (log ++ [x]) := by
  intro front y back heq hf hb
  rcases eq_nil_or_concat back with rfl | ⟨back, z, rfl⟩
  · obtain ⟨rfl, hxy⟩ := append_inj' heq rfl
    obtain rfl := (List.cons.inj hxy).1
    exact hx hf hb
  · have hsplit : log ++ [x] = (front ++ y :: back) ++ [z] := by simpa using heq
    exact h front y back (append_inj' hsplit rfl).1 hf hb

/-- `pic` is what was presented of the scheduler's picture. -/
structure InPicture (s : LayerScheduler) (pic : List Presented) : Prop where
  timestamp : ∀ x ∈ pic, s.pictureValid = true ∧ x.desc.rtpTimestamp = s.pictureTimestamp
  forwarded : ∀ x ∈ pic, x.desc.sid ∉ s.failedSids → x.forwarded = true
  started : ∀ i ∈ s.startedSids, ∃ x ∈ pic, x.desc.sid = i ∧ x.desc.bBit = true
  keyframe : s.keyframeActive = true → s.keyframeTimestamp = s.pictureTimestamp ∧
    ∃ x ∈ pic, x.desc.isKeyframe = true ∧ x.forwarded = true

/-- What is known of a packet that was let through and is not settled yet. -/
structure LetThrough (w : World) (desc : Descriptor) (d : Decision) : Prop where
  about : About desc d
  forward : d.shouldForward = true
  failed : desc.sid ∉ w.sched.failedSids
  started : desc.bBit = false → desc.sid ∈ w.sched.startedSids
  bits : KeyframeBits desc d
  continues : desc.bBit = false → ∃ x ∈ w.log.getLast?, desc.seq = x.desc.seq + 1

structure Awaiting (w : World) (desc : Descriptor) (r : Except Decision Decision) : Prop where
  sid : desc.sid < 8
  valid : w.sched.pictureValid = true
  timestamp : w.sched.pictureTimestamp = desc.rtpTimestamp
  ordered : ∀ x ∈ w.log.getLast?, x.desc.rtpTimestamp = desc.rtpTimestamp → x.desc.sid ≤ desc.sid
  expected : w.sched.seqInitialized = true → w.sched.expectedSeq = desc.seq + 1
  concerns : Concerns desc r
  passes : ∀ d, r = .ok d → LetThrough w desc d

structure Good (w : World) : Prop where
  picture : ∃ old pic, w.log = old ++ pic ∧ InPicture w.sched pic
  chain : w.log.IsChain Follows
  intact : Intact w.log
  expected : w.pending = none → w.sched.seqInitialized = true →
    ∃ x ∈ w.log.getLast?, w.sched.expectedSeq = x.desc.seq + 1
  awaiting : ∀ desc r, w.pending = some (desc, r) → Awaiting w desc r

/-! ### One step -/

/-- A change beside the packets: the picture stays, a keyframe in progress may be given up, and
the sequence check starts over or stays. -/
structure Aside (s s' : LayerScheduler) : Prop where
  valid : s'.pictureValid = s.pictureValid
  timestamp : s'.pictureTimestamp = s.pictureTimestamp
  started : s'.startedSids = s.startedSids
  failed : s'.failedSids = s.failedSids
  keyframe : s'.keyframeTimestamp = s.keyframeTimestamp
  active : s'.keyframeActive = true → s.keyframeActive = true
  expected : s'.seqInitialized = true → s.seqInitialized = true ∧ s'.expectedSeq = s.expectedSeq
  needs : s.needsKeyframe = true → s'.needsKeyframe = true

section

variable (s : LayerScheduler)

lemma aside_setBitrate (bitrateBps : ℕ) (now : ℤ) : Aside s (s.setBitrate bitrateBps now) := by
  unfold setBitrate
  dsimp only
  split_ifs <;> exact ⟨rfl, rfl, rfl, rfl, rfl, id, fun h => ⟨h, rfl⟩, id⟩

lemma aside_resetForKeyframe : Aside s s.resetForKeyframe :=
  ⟨rfl, rfl, rfl, rfl, rfl, nofun, nofun, fun _ => rfl⟩

lemma aside_forStream (source : MediaKind) : Aside s (s.forStream source) := by
  unfold forStream
  split_ifs <;> exact ⟨rfl, rfl, rfl, rfl, rfl, id, fun h => ⟨h, rfl⟩, id⟩

end

lemma good_init (source : MediaKind) : Good (World.init source) := by
  have ha := aside_forStream LayerScheduler.init source
  refine ⟨⟨[], [], rfl, nofun, nofun, ?_, ?_⟩, .nil, intact_nil, ?_, fun _ _ h => by cases h⟩
  · intro i hi
    change i ∈ (LayerScheduler.init.forStream source).startedSids at hi
    rw [ha.started] at hi
    simp [LayerScheduler.init, LayerScheduler.zero] at hi
  · exact fun h => absurd (ha.active h) Bool.false_ne_true
  · exact fun _ h => absurd (ha.expected h).1 Bool.false_ne_true

lemma InPicture.aside (h : InPicture s pic) (ha : Aside s s') : InPicture s' pic := by
  constructor
  · rw [ha.valid, ha.timestamp]
    exact h.timestamp
  · rw [ha.failed]
    exact h.forwarded
  · rw [ha.started]
    exact h.started
  · intro hact
    rw [ha.keyframe, ha.timestamp]
    exact h.keyframe (ha.active hact)

lemma Good.aside (h : Good w) (ha : Aside w.sched s) : Good { w with sched := s } := by
  obtain ⟨old, pic, hlog, hpic⟩ := h.picture
  refine ⟨⟨old, pic, hlog, hpic.aside ha⟩, h.chain, h.intact, ?_, ?_⟩
  · intro hnone hseq
    obtain ⟨hold, heq⟩ := ha.expected hseq
    rw [heq]
    exact h.expected hnone hold
  intro desc r hpending
  have hw := h.awaiting desc r hpending
  refine ⟨hw.sid, ha.valid.trans hw.valid, ha.timestamp.trans hw.timestamp, hw.ordered, ?_,
    hw.concerns, ?_⟩
  · intro hseq
    obtain ⟨hold, heq⟩ := ha.expected hseq
    exact heq.trans (hw.expected hold)
  intro d hd
  have hp := hw.passes d hd
  refine { hp with failed := ?_, started := ?_ }
  · rw [ha.failed]
    exact hp.failed
  · rw [ha.started]
    exact hp.started

lemma InPicture.prepared (h : InPicture s pic) (hp : Prepared s desc s' r) :
    InPicture s' pic ∨ InPicture s' [] := by
  rcases beginPicture_cases s desc.rtpTimestamp with ⟨-, -, hsame⟩ | ⟨hstarted, hfailed, hactive⟩
  · left
    obtain ⟨hv, ht, hst, hf, ha, -, hk⟩ := hp.picture
    rw [hsame] at hv ht hst hf ha hk
    constructor
    · rw [hv, ht]
      exact h.timestamp
    · rw [hf]
      exact h.forwarded
    · rw [hst]
      exact h.started
    · rw [ha, hk, ht]
      exact h.keyframe
  · right
    constructor
    · intro x hx
      cases hx
    · intro x hx
      cases hx
    · intro i hi
      rw [hp.picture.started, hstarted] at hi
      simp at hi
    · intro hact
      rw [hp.picture.active, hactive] at hact
      cases hact

lemma Good.present (h : Good w) (hc : Orderly w (.present desc)) : Good (w.present desc) := by
  obtain ⟨hnone, hsid, hordered⟩ := hc
  obtain ⟨old, pic, hlog, hpic⟩ := h.picture
  have ha := aside_forStream w.sched w.sched.source
  have hp := preparePacket_spec (w.sched.forStream w.sched.source) hsid
  obtain ⟨hvalid, htimestamp⟩ :=
    beginPicture_picture (w.sched.forStream w.sched.source) desc.rtpTimestamp
  refine ⟨?_, h.chain, h.intact, ?_, ?_⟩
  · rcases (hpic.aside ha).prepared hp with hsame | hnew
    · exact ⟨old, pic, hlog, hsame⟩
    · exact ⟨w.log, [], (append_nil _).symm, hnew⟩
  · intro hpending
    cases hpending
  · rintro desc' r ⟨⟩
    refine ⟨hsid, hp.picture.valid.trans hvalid, hp.picture.timestamp.trans htimestamp, hordered,
      fun _ => hp.expected, hp.concerns, ?_⟩
    intro d hd
    have hpass := hp.passes d hd
    refine { hpass with continues := ?_ }
    intro hb
    obtain ⟨hseq, heq⟩ := hp.continues d hd hb
    obtain ⟨hold, hsame⟩ := ha.expected hseq
    obtain ⟨x, hx, hnext⟩ := h.expected hnone hold
    exact ⟨x, hx, by rw [heq, hsame, hnext]⟩

lemma sid_le_last (hchain : (x :: l).IsChain Follows)
    (hts : ∀ y ∈ x :: l, y.desc.rtpTimestamp = t) :
    ∀ z ∈ (x :: l).getLast?, x.desc.sid ≤ z.desc.sid := by
  induction l generalizing x with
  | nil =>
    rintro z ⟨⟩
    exact le_rfl
  | cons y l ih =>
    rw [isChain_cons_cons] at hchain
    intro z hz
    have hxy : x.desc.sid ≤ y.desc.sid :=
      hchain.1.1 ((hts x (.head _)).trans (hts y (.tail _ (.head _))).symm)
    exact hxy.trans (ih hchain.2 (fun w hw => hts w (.tail _ hw)) z hz)

lemma sid_eq_of_chain {i : ℕ} (hchain : (x :: l).IsChain Follows)
    (hts : ∀ y ∈ x :: l, y.desc.rtpTimestamp = t) (hx : x.desc.sid = i)
    (hlast : ∀ z ∈ (x :: l).getLast?, z.desc.sid ≤ i) : ∀ y ∈ x :: l, y.desc.sid = i := by
  induction l generalizing x with
  | nil =>
    intro y hy
    rw [mem_singleton] at hy
    rw [hy, hx]
  | cons y l ih =>
    have htail : ∀ w ∈ y :: l, w.desc.rtpTimestamp = t := fun w hw => hts w (.tail _ hw)
    rw [isChain_cons_cons] at hchain
    have hxy : x.desc.sid ≤ y.desc.sid :=
      hchain.1.1 ((hts x (.head _)).trans (htail y (.head _)).symm)
    have hy : y.desc.sid = i := by
      apply le_antisymm _ (hx ▸ hxy)
      obtain ⟨z, hz⟩ : ∃ z, (y :: l).getLast? = some z :=
        ⟨_, List.getLast?_eq_some_getLast (cons_ne_nil _ _)⟩
      exact (sid_le_last hchain.2 htail z hz).trans (hlast z hz)
    intro w hw
    rcases mem_cons.1 hw with rfl | hw
    · exact hx
    · exact ih hchain.2 htail hy hlast w hw

lemma consecutive_of_chain (hchain : (x :: l).IsChain Follows)
    (hl : ∀ y ∈ l, y.forwarded ∧ y.desc.bBit = false) :
    Consecutive ((x :: l).map (·.desc.seq)) := by
  induction l generalizing x with
  | nil => exact .singleton _
  | cons y l ih =>
    rw [isChain_cons_cons] at hchain
    obtain ⟨hf, hb⟩ := hl y (.head _)
    refine isChain_cons_cons.2 ⟨hchain.1.2 hf hb, ?_⟩
    exact ih hchain.2 fun z hz => hl z (.tail _ hz)

lemma exists_last {α : Type*} {p : α → Prop} [DecidablePred p] {l : List α}
    (h : ∃ x ∈ l, p x) : ∃ a x b, l = a ++ x :: b ∧ p x ∧ ∀ y ∈ b, ¬ p y := by
  induction l using List.reverseRecOn with
  | nil => simp at h
  | append_singleton l z ih =>
    by_cases hz : p z
    · exact ⟨l, z, [], rfl, hz, nofun⟩
    · obtain ⟨a, x, b, rfl, hx, hb⟩ := ih (by simpa [hz] using h)
      exact ⟨a, x, b ++ [z], by simp, hx, forall_mem_append.2 ⟨hb, forall_mem_singleton.2 hz⟩⟩

/-- **A packet that is let through behind a started frame goes on with it.** -/
lemma Good.continues (h : Good w) (hw : Awaiting w desc r) (hd : LetThrough w desc d)
    (hb : desc.bBit = false) : Continues w.log desc := by
  obtain ⟨old, pic, hlog, hpic⟩ := h.picture
  have hts : ∀ x ∈ pic, x.desc.rtpTimestamp = desc.rtpTimestamp := fun x hx =>
    (hpic.timestamp x hx).2.trans hw.timestamp
  obtain ⟨x, hx, hsid, hstart⟩ := hpic.started _ (hd.started hb)
  obtain ⟨a, start, mid, rfl, ⟨hs, hsb⟩, hmid⟩ :=
    exists_last (p := fun y : Presented => y.desc.sid = desc.sid ∧ y.desc.bBit)
      ⟨x, hx, hsid, hstart⟩
  have hfront : w.log = (old ++ a) ++ start :: mid := by rw [hlog, append_assoc]
  have hlast : w.log.getLast? = (start :: mid).getLast? := by
    rw [hfront, List.getLast?_append_of_ne_nil _ (cons_ne_nil _ _)]
  have hmem : ∀ y ∈ start :: mid, y ∈ a ++ start :: mid := fun y hy =>
    mem_append_right a hy
  have hchain : (start :: mid).IsChain Follows := (isChain_append.1 (hfront ▸ h.chain)).2.1
  have hsids : ∀ y ∈ start :: mid, y.desc.sid = desc.sid := by
    apply sid_eq_of_chain hchain (fun y hy => hts y (hmem y hy)) hs
    intro z hz
    rw [← hlast] at hz
    exact hw.ordered z hz (hts z (hmem z (mem_of_getLast? (hlast ▸ hz))))
  have hfwd : ∀ y ∈ start :: mid, y.forwarded := by
    intro y hy
    apply hpic.forwarded y (hmem y hy)
    rw [hsids y hy]
    exact hd.failed
  have hplain : ∀ y ∈ mid, y.desc.bBit = false := by
    intro y hy
    have := hmid y hy
    rw [not_and] at this
    simpa using this (hsids y (.tail _ hy))
  refine ⟨old ++ a, start, mid, hfront, hsb, hplain, ?_, ?_⟩
  · intro y hy
    exact ⟨⟨hts y (hmem y hy), hsids y hy⟩, hfwd y hy⟩
  refine (consecutive_of_chain hchain fun y hy => ⟨hfwd y (.tail _ hy), hplain y hy⟩).append
    (.singleton _) ?_
  intro n hn m hm
  obtain ⟨z, hz, hseq⟩ := hd.continues hb
  rw [hlast] at hz
  rw [List.getLast?_map, mem_def, map_eq_some_iff] at hn
  obtain ⟨z', hz', rfl⟩ := hn
  obtain rfl : z = z' := some.inj (hz.symm.trans hz')
  obtain rfl : desc.seq = m := by simpa using hm
  exact hseq

lemma awaiting_inPicture (hw : Awaiting w desc r) (hd : About desc d) : w.sched.inPicture d := by
  unfold inPicture
  rw [hw.valid, hw.timestamp, hd.timestamp, hd.sid]
  simp [hw.sid]

lemma Good.settled (h : Good w) (hw : Awaiting w desc r) {fwd : Bool}
    (hfwd : fwd → ∃ d, LetThrough w desc d)
    (hpic : ∀ pic, InPicture w.sched pic → InPicture s (pic ++ [⟨desc, fwd⟩]))
    (hexpected : s.seqInitialized → s.expectedSeq = desc.seq + 1) :
    Good ⟨s, none, w.log ++ [⟨desc, fwd⟩]⟩ := by
  obtain ⟨old, pic, hlog, hin⟩ := h.picture
  have hcont : fwd → desc.bBit = false → Continues w.log desc := by
    intro hf hb
    obtain ⟨d, hd⟩ := hfwd hf
    exact h.continues hw hd hb
  refine ⟨⟨old, pic ++ [⟨desc, fwd⟩], ?_, hpic pic hin⟩, ?_, h.intact.concat hcont, ?_, ?_⟩
  · rw [hlog, append_assoc]
  · refine h.chain.append (.singleton _) ?_
    rintro x hx y ⟨⟩
    refine ⟨hw.ordered x hx, ?_⟩
    intro hf hb
    obtain ⟨d, hd⟩ := hfwd hf
    obtain ⟨z, hz, hseq⟩ := hd.continues hb
    obtain rfl : z = x := some.inj (hz.symm.trans hx)
    exact hseq
  · intro _ hseq
    exact ⟨⟨desc, fwd⟩, by simp, hexpected hseq⟩
  · intro desc' r' hp
    cases hp

lemma Good.reject (h : Good w) (hw : Awaiting w desc r) (hd : About desc d) :
    Good ⟨w.sched.rejectPacket d, none, w.log ++ [⟨desc, false⟩]⟩ := by
  have hr := rejectPacket_spec (awaiting_inPicture hw hd)
  refine h.settled hw nofun ?_ ?_
  · intro pic hpic
    constructor
    · rw [hr.valid, hr.timestamp]
      exact forall_mem_append.2
        ⟨hpic.timestamp, forall_mem_singleton.2 ⟨hw.valid, hw.timestamp.symm⟩⟩
    · simp only [hr.failed, hd.sid, Finset.mem_insert, not_or]
      exact forall_mem_append.2 ⟨fun x hx hi => hpic.forwarded x hx hi.2,
        forall_mem_singleton.2 fun hi => absurd rfl hi.1⟩
    · intro i hi
      rw [hr.started] at hi
      obtain ⟨x, hx, hrest⟩ := hpic.started i hi
      exact ⟨x, mem_append_left _ hx, hrest⟩
    · intro hact
      obtain ⟨hts, x, hx, hrest⟩ := hpic.keyframe (hr.active hact)
      rw [hr.keyframe, hr.timestamp]
      exact ⟨hts, x, mem_append_left _ hx, hrest⟩
  · rw [hr.seqInitialized, hr.expected]
    exact hw.expected

lemma Good.commit (h : Good w) (hw : Awaiting w desc r) (hd : LetThrough w desc d) :
    Good ⟨w.sched.commitPacket d, none, w.log ++ [⟨desc, true⟩]⟩ := by
  have hin := awaiting_inPicture hw hd.about
  have hc := commitPacket_spec hin hd.forward
  apply h.settled hw fun _ => ⟨d, hd⟩
  · intro pic hpic
    constructor
    · rw [hc.valid, hc.timestamp]
      exact forall_mem_append.2
        ⟨hpic.timestamp, forall_mem_singleton.2 ⟨hw.valid, hw.timestamp.symm⟩⟩
    · rw [hc.failed]
      exact forall_mem_append.2 ⟨hpic.forwarded, forall_mem_singleton.2 fun _ => rfl⟩
    · intro i hi
      have hold : i ∈ w.sched.startedSids →
          ∃ x ∈ pic ++ [⟨desc, true⟩], x.desc.sid = i ∧ x.desc.bBit := by
        intro hi
        obtain ⟨x, hx, hrest⟩ := hpic.started i hi
        exact ⟨x, mem_append_left _ hx, hrest⟩
      rw [hc.started, hd.about.bBit, hd.about.sid] at hi
      split at hi
      · rename_i hb
        rcases Finset.mem_insert.1 hi with rfl | hi
        · exact ⟨⟨desc, true⟩, mem_append_right _ (.head _), rfl, hb⟩
        · exact hold hi
      · exact hold hi
    · intro hact
      rw [hc.keyframe, hc.timestamp]
      by_cases hstart : d.startKeyframe
      · rw [if_pos hstart, hd.about.timestamp]
        exact ⟨hw.timestamp.symm, ⟨desc, true⟩, mem_append_right _ (.head _),
          (hd.bits.start hstart).1, rfl⟩
      · rw [if_neg hstart]
        obtain ⟨hts, x, hx, hrest⟩ := hpic.keyframe ((hc.active hact).resolve_right hstart)
        exact ⟨hts, x, mem_append_left _ hx, hrest⟩
  · intro _
    rw [hc.expected, hd.about.seq]

lemma good_step (h : Good w) (op : Op) (hc : Orderly w op) : Good (step w op) := by
  cases op with
  | present desc => exact h.present hc
  | settle admitted =>
    change Good (w.settle admitted)
    unfold World.settle
    rcases hp : w.pending with _ | ⟨desc, d | d⟩
    · exact h
    · exact h.reject (h.awaiting desc _ hp) (h.awaiting desc _ hp).concerns
    · have hw := h.awaiting desc _ hp
      cases admitted with
      | true => exact h.commit hw (hw.passes d rfl)
      | false => exact h.reject hw hw.concerns
  | setBitrate bitrateBps now => exact h.aside (aside_setBitrate _ _ _)
  | resetForKeyframe => exact h.aside (aside_resetForKeyframe _)

lemma good_run (source : MediaKind) {ops : List Op}
    (hc : Along step Orderly (World.init source) ops) :
    Good (run step (World.init source) ops) :=
  run_inv_along step (I := Good) (fun _ op h hc => good_step h op hc) (good_init source) hc

/-! ### Results -/

/-- **Frame integrity.** In any orderly run, whenever a packet that does not start a frame is
forwarded, everything presented since the last start of its frame belongs to that frame and was
forwarded, and the source numbers from that start to this packet are consecutive. -/
theorem frame_integrity (source : MediaKind) (ops : List Op)
    (hc : Along step Orderly (World.init source) ops) :
    Intact (run step (World.init source) ops).log :=
  (good_run source hc).intact

def basePacket (seq : UInt16) (b e : Bool) : Descriptor :=
  ⟨3000, seq, 0, 0, false, false, false, b, e, false⟩

/-- A keyframe whose second packet arrives twice. -/
def duplicated : List Op :=
  [.present (basePacket 9 true false), .settle true, .present (basePacket 10 false false),
    .settle true, .present (basePacket 10 false false), .settle true]

theorem frame_integrity_duplicated :
    let w := run step (World.init .screen) duplicated
    w.log.map (·.forwarded) = [true, true, false] ∧ Intact w.log := by
  have hc : Along step Orderly (World.init .screen) duplicated := by decide +kernel
  exact ⟨by decide +kernel, frame_integrity .screen duplicated hc⟩

/-- A keyframe of this picture was begun: its start was forwarded, and everything presented since
belongs to the picture. -/
def KeyframeBegun (log : List Presented) (timestamp : UInt32) : Prop :=
  ∃ before start rest, log = before ++ start :: rest ∧ start.desc.isKeyframe = true ∧
    start.forwarded = true ∧ ∀ x ∈ start :: rest, x.desc.rtpTimestamp = timestamp

/-- The log ends with a whole frame so far: all packets since the last start are of this frame,
were forwarded, and carry consecutive numbers. -/
def EndsWhole (log : List Presented) (desc : Descriptor) : Prop :=
  ∃ before start mid, log = before ++ start :: mid ∧ start.desc.bBit = true ∧
    (∀ y ∈ mid, y.desc.bBit = false) ∧
    (∀ y ∈ start :: mid, SameFrame desc y ∧ y.forwarded = true) ∧
    Consecutive ((start :: mid).map (·.desc.seq))

lemma Continues.endsWhole (h : Continues log desc) (hb : desc.bBit = false) :
    EndsWhole (log ++ [⟨desc, true⟩]) desc := by
  obtain ⟨before, start, mid, rfl, hstart, hmid, hall, hseq⟩ := h
  refine ⟨before, start, mid ++ [⟨desc, true⟩], by simp, hstart, ?_, ?_, ?_⟩
  · exact forall_mem_append.2 ⟨hmid, forall_mem_singleton.2 hb⟩
  · rw [← cons_append]
    exact forall_mem_append.2 ⟨hall, forall_mem_singleton.2 ⟨⟨rfl, rfl⟩, rfl⟩⟩
  · rw [← cons_append, map_append]
    exact hseq

lemma InPicture.keyframeBegun {old : List Presented} (h : InPicture s pic)
    (hact : s.keyframeActive) : KeyframeBegun (old ++ pic) s.pictureTimestamp := by
  obtain ⟨-, x, hx, hkey, hfwd⟩ := h.keyframe hact
  obtain ⟨a, b, rfl⟩ := append_of_mem hx
  refine ⟨old ++ a, x, b, by rw [append_assoc], hkey, hfwd, ?_⟩
  intro y hy
  exact (h.timestamp y (mem_append_right a hy)).2

lemma KeyframeBegun.concat (h : KeyframeBegun log t) (hx : x.desc.rtpTimestamp = t) :
    KeyframeBegun (log ++ [x]) t := by
  obtain ⟨before, start, rest, rfl, hkey, hfwd, hts⟩ := h
  refine ⟨before, start, rest ++ [x], by simp, hkey, hfwd, ?_⟩
  rw [← cons_append]
  exact forall_mem_append.2 ⟨hts, forall_mem_singleton.2 hx⟩

/-- While a keyframe is needed, a packet that is let through starts one or belongs to the one
that was begun. -/
lemma Good.gate (h : Good w) (hc : Orderly w (.present desc))
    (hneeds : w.sched.needsKeyframe) (hd : (w.present desc).pending = some (desc, .ok d)) :
    desc.isKeyframe ∨
      (desc.sid = 0 ∧ desc.pBit = false ∧ KeyframeBegun w.log desc.rtpTimestamp) := by
  have hp := preparePacket_spec (w.sched.forStream w.sched.source) hc.2.1
  have hn := hp.needs ((aside_forStream w.sched w.sched.source).needs hneeds)
  have hr : ((w.sched.forStream w.sched.source).preparePacket desc desc.isKeyframe).2 = .ok d :=
    congrArg Prod.snd (some.inj hd)
  rcases (hp.passes d hr).gate hn with hkey | ⟨hact, -, hsid, hpbit⟩
  · exact .inl hkey
  obtain ⟨old, pic, hlog, hpic⟩ := (h.present hc).picture
  have hw := (h.present hc).awaiting desc _ hd
  have hbegun : KeyframeBegun (old ++ pic) _ := hpic.keyframeBegun hact
  rw [hw.timestamp] at hbegun
  exact .inr ⟨hsid, hpbit, (hlog : w.log = old ++ pic) ▸ hbegun⟩

/-- The need for a keyframe is only met by the commit of a keyframe's last packet. -/
lemma Good.met (h : Good w) (hw : Awaiting w desc r) (hd : LetThrough w desc d)
    (hneeds : w.sched.needsKeyframe = true)
    (hmet : (w.sched.commitPacket d).needsKeyframe = false) :
    desc.eBit = true ∧ desc.sid = 0 ∧ desc.pBit = false ∧
      KeyframeBegun (w.log ++ [⟨desc, true⟩]) desc.rtpTimestamp ∧
      EndsWhole (w.log ++ [⟨desc, true⟩]) desc := by
  have hc := commitPacket_spec (awaiting_inPicture hw hd.about) hd.forward
  obtain ⟨hpacket, heBit, -, hact⟩ := hc.needs hneeds hmet
  obtain ⟨hsid, hpbit⟩ := hd.bits.packet hpacket
  refine ⟨hd.about.eBit ▸ heBit, hsid, hpbit, ?_, ?_⟩
  · rcases hact with hact | hstart
    · obtain ⟨old, pic, hlog, hpic⟩ := h.picture
      have hbegun : KeyframeBegun (old ++ pic) _ := hpic.keyframeBegun hact
      rw [hw.timestamp, ← hlog] at hbegun
      exact hbegun.concat rfl
    · exact ⟨w.log, ⟨desc, true⟩, [], rfl, (hd.bits.start hstart).1, rfl,
        forall_mem_singleton.2 rfl⟩
  · cases hb : desc.bBit with
    | false => exact (h.continues hw hd hb).endsWhole hb
    | true =>
      exact ⟨w.log, ⟨desc, true⟩, [], rfl, hb, nofun,
        forall_mem_singleton.2 ⟨⟨rfl, rfl⟩, rfl⟩, .singleton _⟩

/-- **Keyframe gating.** In any orderly run: while a keyframe is needed, a packet is let through
only if it starts a keyframe, or is a later packet of layer 0 without inter prediction of a
picture whose keyframe start was forwarded. The need ends only with the commit of the last
packet of such a frame, all of whose packets since its last start were forwarded with
consecutive source numbers. -/
theorem keyframe_gating (source : MediaKind) (ops : List Op)
    (hc : Along step Orderly (World.init source) ops) :
    let w := run step (World.init source) ops
    (∀ desc d, Orderly w (.present desc) → w.sched.needsKeyframe = true →
      (w.present desc).pending = some (desc, .ok d) →
      desc.isKeyframe = true ∨
        (desc.sid = 0 ∧ desc.pBit = false ∧ KeyframeBegun w.log desc.rtpTimestamp)) ∧
    ∀ op, Orderly w op → w.sched.needsKeyframe = true →
      (step w op).sched.needsKeyframe = false →
      ∃ desc d, op = .settle true ∧ w.pending = some (desc, .ok d) ∧
        desc.eBit = true ∧ desc.sid = 0 ∧ desc.pBit = false ∧
        KeyframeBegun (w.log ++ [⟨desc, true⟩]) desc.rtpTimestamp ∧
        EndsWhole (w.log ++ [⟨desc, true⟩]) desc := by
  intro w
  have h : Good w := good_run source hc
  refine ⟨fun desc d hop hneeds hd => h.gate hop hneeds hd, ?_⟩
  intro op hop hneeds hmet
  have hkept : (step w op).sched.needsKeyframe = true → False := by
    rw [hmet]
    exact Bool.false_ne_true
  cases op with
  | present desc =>
    have hp := preparePacket_spec (w.sched.forStream w.sched.source) hop.2.1
    exact (hkept (hp.needs ((aside_forStream _ _).needs hneeds))).elim
  | setBitrate bitrateBps now => exact (hkept ((aside_setBitrate _ _ _).needs hneeds)).elim
  | resetForKeyframe => exact (hkept rfl).elim
  | settle admitted =>
    change (w.settle admitted).sched.needsKeyframe = false at hmet
    change (w.settle admitted).sched.needsKeyframe = true → False at hkept
    unfold World.settle at hmet hkept
    rcases hp : w.pending with _ | ⟨desc, d | d⟩
    · rw [hp] at hkept
      exact (hkept hneeds).elim
    · have hw := h.awaiting desc _ hp
      rw [hp] at hkept
      exact (hkept ((rejectPacket_spec (awaiting_inPicture hw hw.concerns)).needs hneeds)).elim
    · have hw := h.awaiting desc _ hp
      rw [hp] at hkept hmet
      cases admitted with
      | false =>
        exact (hkept ((rejectPacket_spec (awaiting_inPicture hw hw.concerns)).needs hneeds)).elim
      | true => exact ⟨desc, d, rfl, rfl, h.met hw (hw.passes d rfl) hneeds hmet⟩

/-- The last packet of a keyframe of two packets ends the need. -/
theorem keyframe_gating_met :
    let w := run step (World.init .screen)
      [.present (basePacket 9 true false), .settle true, .present (basePacket 10 false true)]
    (w.sched.needsKeyframe = true ∧ (step w (.settle true)).sched.needsKeyframe = false) ∧
      ∃ desc d, w.pending = some (desc, .ok d) ∧ desc.eBit = true ∧
        KeyframeBegun (w.log ++ [⟨desc, true⟩]) desc.rtpTimestamp := by
  intro w
  have hc : Along step Orderly (World.init .screen)
      [.present (basePacket 9 true false), .settle true, .present (basePacket 10 false true)] := by
    decide +kernel
  have hneeds : w.sched.needsKeyframe = true := by decide +kernel
  have hmet : (step w (.settle true)).sched.needsKeyframe = false := by decide +kernel
  obtain ⟨desc, d, -, hpending, heBit, -, -, hbegun, -⟩ :=
    (keyframe_gating .screen _ hc).2 (.settle true) trivial hneeds hmet
  exact ⟨⟨hneeds, hmet⟩, desc, d, hpending, heBit, hbegun⟩

end MezonSfu.Svc
