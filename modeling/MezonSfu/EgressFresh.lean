import MezonSfu.EgressNumbers

/-!
No number on the wire comes from a place in the ledger that was used before: the steps of the
egress path keep the packets in flight on different places, in every run in which a frame that is
rolled back gives back the numbers of its own packets.
-/

namespace MezonSfu.Pipeline

open Paced Rtp Function List

namespace Egress

variable {e e' : Egress ℕ} {n : ℕ} {k : QueueId} {q r s : PacedSend (Wire ℕ)}

/-! ### The queue operations -/

lemma rolledBack_rollbackInputFrame (h : q.WF) : RolledBack q q.rollbackInputFrame := by
  obtain ⟨hwf, hlist, hready, -⟩ := PacedSend.rollbackInputFrame_spec h
  refine ⟨hwf, ?_, hready, ?_, fun h0 => (PacedSend.rollbackInputFrame_notes h h0).1, ?_⟩
  · unfold PacedSend.contents
    rw [hlist, map_take]
  · intro h0 hn
    rw [PacedSend.rollbackInputFrame_of_zero h0]
    exact hn
  · intro h0
    unfold PacedSend.contents
    rw [(PacedSend.rollbackInputFrame_notes h h0).2, ← map_drop, map_map]
    rfl

lemma RolledBack.of_same (h : RolledBack q r) (hs : PacedSend.SameQueue r s) (hwf : s.WF) :
    RolledBack q s where
  wf := hwf
  contents := hs.contents.trans h.contents
  ready := hs.ready.trans h.ready
  idle h0 hn := by
    obtain ⟨h1, h2, h3⟩ := h.idle h0 hn
    exact ⟨hs.publisher.trans h1, hs.ssrc.trans h2, hs.packets.trans h3⟩
  packets h0 := hs.packets.trans (h.packets h0)
  ssrc h0 := hs.ssrc.trans (h.ssrc h0)

lemma rejectInputFrame_spec (h : q.WF) (h0 : q.inputFrameQueuedPackets = 0) :
    q.rejectInputFrame.WF ∧ PacedSend.SameQueue q q.rejectInputFrame := by
  unfold PacedSend.rejectInputFrame
  split
  · exact ⟨⟨h.ring, h.count, h.idle, fun _ => h0⟩, ⟨rfl, rfl, rfl, rfl, rfl, rfl⟩⟩
  · exact ⟨h, PacedSend.SameQueue.rfl⟩

/-- The condition reads the open frame and the ledgers. -/
lemma OwnNumbers.congr (h : e.OwnNumbers k) (ho : e'.openFrame k = e.openFrame k)
    (hk : e'.kept = e.kept) : e'.OwnNumbers k := by
  unfold OwnNumbers rollbackSsrc
  rw [ho, hk]
  exact h

lemma ownNumbers_of_nil (h : e.openFrame k = []) : e.OwnNumbers k := by
  unfold OwnNumbers
  rw [h]
  exact fun _ _ => nil_prefix

lemma good_rollbackFrame (h : Good n e) (m : Media) (hown : e.OwnNumbers k) :
    Good n (e.rollbackFrame m k) := by
  obtain ⟨hwf, -, -, h0, -⟩ := PacedSend.rollbackInputFrame_spec (h.queue k)
  obtain ⟨hwf', hsame⟩ := rejectInputFrame_spec hwf h0
  exact good_invalidateRolledBackFrame h hown
    ((rolledBack_rollbackInputFrame (h.queue k)).of_same hsame hwf') _ m

lemma good_rejectFrame (h : Good n e) (m : Media) (hown : ∀ k ∈ pacedQueue m, e.OwnNumbers k) :
    Good n (e.rejectFrame m) := by
  unfold rejectFrame
  split
  · rename_i k hm
    exact good_rollbackFrame h m (hown k hm)
  · exact h

lemma sublist_ofFate (l : List (PacedSend.Fate (Wire ℕ))) :
    ((l.map Event.ofFate).filterMap Event.wire?).Sublist
      ((l.map PacedSend.Fate.entry).map Entry.data) := by
  induction l with
  | nil => exact List.Sublist.slnil
  | cons f l ih =>
    cases f with
    | sent x => exact ih.cons_cons x.data
    | stale x => exact ih.cons x.data

lemma good_drain (h : Good n e) (k : QueueId) (accepts : ℕ → Bool) (nowUs : ℤ)
    (remaining : ℕ) : Good n (e.drain k accepts nowUs remaining) := by
  obtain ⟨m, hs, hfates, -⟩ := PacedSend.drain_spec (h.queue k) (entryValid e.session) accepts
    nowUs remaining
  refine h.shrink hs.toShrunk ?_
  have hsub := sublist_ofFate ((e.queues k).drain (entryValid e.session) accepts nowUs remaining).2
  rw [hfates] at hsub
  have hdata : ((e.queues k).contents.take m).map Entry.data =
      ((e.queues k).toList.take m).map Entry.data := by
    unfold PacedSend.contents
    rw [← map_take, map_map]
    rfl
  rw [hdata]
  exact hsub

lemma good_boundBacklog (h : Good n e) (k : QueueId) (nowUs : ℤ) (report : DropReport) :
    let r := e.boundBacklog k nowUs report
    Good n r.1 ∧ (r.1.queues k).inputView = (e.queues k).inputView := by
  obtain ⟨m, hs, -⟩ := PacedSend.boundBacklog_spec (h.queue k) screenMaxDelayUs nowUs report
  refine ⟨h.shrink hs.toShrunk ?_, ?_⟩
  · rw [filterMap_discarded]
    exact nil_sublist _
  · exact (congrArg PacedSend.inputView (queues_setQueue_self ..)).trans hs.input

lemma good_finishFrame (h : Good n e) (ha : (e.queues k).inputFrameActive) (m : Media)
    (nowUs : ℤ) (report : DropReport) : Good n (e.finishFrame m k nowUs report).1 := by
  obtain ⟨hwf, hcontents, -, -, -, h1, h2, h3⟩ :=
    PacedSend.finishInputFrame_spec (h.queue k) ha
  have hgood : Good n (e.setQueue k (e.queues k).finishInputFrame) := by
    have hn : NoNotes (e.queues k).finishInputFrame := by
      obtain ⟨hp, hx, hc⟩ := h.notes k
      exact ⟨h1.trans hp, h2.trans hx, h3.trans hc⟩
    have hset : Good n ((e.setQueue k (e.queues k).finishInputFrame).record []) := by
      refine h.setQueue hwf hn ?_
      rw [hcontents]
      exact le_rfl
    exact hset.of_eq rfl rfl rfl rfl (by rw [wire_record]; simp)
  unfold finishFrame
  split
  · exact (good_boundBacklog hgood k nowUs report).1
  · exact hgood

lemma queues_invalidateRolledBackFrame (e : Egress ℕ) (m : Media) (k k' : QueueId) :
    (e.invalidateRolledBackFrame m k).queues k' = e.queues k' ∨
      (e.invalidateRolledBackFrame m k).queues k' = clearNotes (e.queues k') := by
  have hinv : ∀ (d : Egress ℕ) (source : Svc.MediaKind) (publisher : ℕ),
      (d.invalidateKnown source publisher).queues = d.queues := by
    intro d source publisher
    unfold Egress.invalidateKnown invalidatePublisherScheduler
    split
    · split
      · rfl
      · rfl
    · rfl
  have hgive :
      (e.giveBackRolledBack k).queues = (e.setQueue k (clearNotes (e.queues k))).queues := by
    unfold giveBackRolledBack
    dsimp only
    split
    · rfl
    · rfl
  unfold invalidateRolledBackFrame
  dsimp only
  split
  · exact .inl rfl
  · rw [hinv, hgive]
    rcases eq_or_ne k' k with rfl | hk'
    · exact .inr (queues_setQueue_self ..)
    · exact .inl (queues_setQueue_of_ne hk' _)

lemma openFrame_invalidateRolledBackFrame (e : Egress ℕ) (m : Media) (k k' : QueueId) :
    (e.invalidateRolledBackFrame m k).openFrame k' = e.openFrame k' := by
  unfold openFrame
  rcases queues_invalidateRolledBackFrame e m k k' with h | h
  · rw [h]
  · rw [h]
    rfl

lemma openFrame_of_idle (h : Good n e) (ha : (e.queues k).inputFrameActive = false) :
    e.openFrame k = [] := by
  refine eq_nil_of_length_eq_zero ?_
  rw [length_openFrame h k]
  exact (h.queue k).idle ha

/-- **Admission** keeps the invariant; a frame that a packet does not join is closed, and the
packet is admitted to an open frame. -/
lemma good_admitPacket (h : Good n e) (p : Packet ℕ) (m : Media) (marker : Bool) (nowUs : ℤ)
    (hown : (e.queues k).rollsBack p.timestamp = true → e.OwnNumbers k) :
    let r := e.admitPacket p m marker k nowUs
    Good n r.1 ∧ (r.1.openFrame k = [] ∨ r.1.openFrame k = e.openFrame k ∧ r.1.kept = e.kept ∧
        r.1.translator = e.translator) ∧
      (r.2 →
        (r.1.queues k).inputFrameActive ∧ (r.1.queues k).dropInputFrame = false) := by
  obtain ⟨hwf, hsame, hadm⟩ := PacedSend.admitFramePacket_spec (h.queue k) p.timestamp marker
    m.isKeyframe (decide (m.source = .video))
    (if decide (m.source = .video) then cameraMaxDelayUs else screenMaxDelayUs) nowUs
  unfold admitPacket
  dsimp only
  generalize (e.queues k).admitFramePacket p.timestamp marker m.isKeyframe
    (decide (m.source = .video))
    (if decide (m.source = .video) then cameraMaxDelayUs else screenMaxDelayUs) nowUs = r
    at *
  generalize (if (e.queues k).rollsBack p.timestamp then unfinished (e.queues k)
    else []) = gone
  set b := (e.setQueue k r.1).discard gone
  have hself : b.queues k = r.1 := queues_setQueue_self e k r.1
  have hframe : b.openFrame k = r.1.contents.drop r.1.readyCount := by
    unfold openFrame
    rw [hself]
  have hflags : r.2 → ((b.invalidateRolledBackFrame m k).queues k).inputFrameActive ∧
      ((b.invalidateRolledBackFrame m k).queues k).dropInputFrame = false := by
    intro hr
    rcases queues_invalidateRolledBackFrame b m k k with hq | hq
    · rw [hq, hself]
      exact hadm hr
    · rw [hq, hself]
      exact hadm hr
  rw [openFrame_invalidateRolledBackFrame, hframe]
  unfold PacedSend.settled at hsame
  split at hsame
  · -- the open frame is another one: it is rolled back
    rename_i hroll
    have hrb := (rolledBack_rollbackInputFrame (h.queue k)).of_same hsame hwf
    refine ⟨good_invalidateRolledBackFrame h (hown hroll) hrb gone m, .inl ?_, hflags⟩
    rw [hrb.contents, hrb.ready]
    exact drop_eq_nil_of_le (length_take_le _ _)
  · have hn : NoNotes r.1 := by
      obtain ⟨h1, h2, h3⟩ := h.notes k
      exact ⟨hsame.publisher.trans h1, hsame.ssrc.trans h2, hsame.packets.trans h3⟩
    have hstay : b.invalidateRolledBackFrame m k = b := by
      unfold invalidateRolledBackFrame
      rw [hself, if_pos ⟨hn.1, hn.2.2⟩]
    rw [hstay] at hflags ⊢
    refine ⟨h.setQueue hwf hn ?_, .inr ⟨?_, rfl, rfl⟩, hflags⟩
    · rw [filterMap_discarded, hsame.contents]
      change 0 + _ ≤ _
      rw [zero_add]
      exact le_rfl
    · unfold openFrame
      rw [hsame.contents, hsame.ready]

variable {p : Packet ℕ} {m : Media}

lemma good_numberAndEmit_free (h : Good n e) (hp : p.tag = n) (hm : pacedQueue m = none)
    (marker : Bool) (o : Outcome) (nowUs : ℤ) (report : DropReport) :
    Good (n + 1) (e.numberAndEmit p m marker o nowUs report).1 := by
  unfold numberAndEmit
  rw [hp]
  split
  · exact h.mono (Nat.le_succ n)
  rename_i e' w hd
  have hback := (h.drawBack hd).1
  split
  · unfold emit
    rw [hm]
    dsimp only
    split
    · obtain ⟨hgood, hmem, hnew⟩ := h.draw hd
      exact hgood.handed hmem hnew
    · exact hback
  · unfold abandon
    rw [hm]
    exact hback

/-- A packet that is to be paced keeps the invariant: where it fails, the frame is rolled back. -/
lemma good_numberAndEmit_paced (h : Good n e) (hp : p.tag = n) (hm : pacedQueue m = some k)
    (hact : (e.queues k).inputFrameActive) (hdrop : (e.queues k).dropInputFrame = false)
    (marker : Bool) (o : Outcome) (nowUs : ℤ) (report : DropReport)
    (hown : (translate e.translator p.ssrc p.seq).isSome = true →
      (e.numberAndEmit p m marker o nowUs report).2.2 = false → e.OwnNumbers k) :
    Good (n + 1) (e.numberAndEmit p m marker o nowUs report).1 := by
  unfold numberAndEmit at hown ⊢
  rw [hp] at hown ⊢
  cases hd : e.draw p.ssrc p.seq n with
  | none => exact h.mono (Nat.le_succ n)
  | some r =>
    obtain ⟨e', w⟩ := r
    rw [hd] at hown
    dsimp only at hown ⊢
    have hsome : (translate e.translator p.ssrc p.seq).isSome = true := by
      obtain ⟨t, seq, ht, -⟩ := draw_cases hd
      rw [ht]
      rfl
    have hback : e.OwnNumbers k → Good (n + 1) (e'.abandon m w) := by
      intro hk
      obtain ⟨hgood, hqs, hkept⟩ := h.drawBack hd
      unfold abandon
      rw [hm]
      exact good_rollbackFrame hgood m (hk.congr (openFrame_congr (congrFun hqs k)) hkept)
    split_ifs at hown ⊢
    · unfold emit at hown ⊢
      rw [hm] at hown ⊢
      dsimp only at hown ⊢
      cases hq : (e'.queues k).enqueue w o.encLen e'.session.addr o.pacingBps (e'.metadata m k)
          o.allocated nowUs with
      | none =>
        rw [hq] at hown
        exact hback (hown hsome rfl)
      | some q =>
        have hgood := h.drawQueue hd hq hact hdrop
        dsimp only
        split
        · refine good_finishFrame hgood ?_ m nowUs report
          rw [queues_setQueue_self]
          obtain ⟨hqs, -⟩ := h.draw_frame hd
          rw [hqs] at hq
          obtain ⟨_, -, -, -, -, hqeq, -⟩ := PacedSend.enqueue_cases (h.queue k) hq
          rw [hqeq]
          exact hact
        · exact hgood
    · exact hback (hown hsome rfl)

lemma good_admitAndEmit (h : Good n e) (hp : p.tag = n) (marker : Bool) (o : Outcome) (nowUs : ℤ)
    (report : DropReport)
    (hown : ∀ k ∈ pacedQueue m, (e.queues k).rollsBack p.timestamp = true ∨
      (translate e.translator p.ssrc p.seq).isSome = true ∧
      (e.admitAndEmit p m marker o nowUs report).2.2 = false → e.OwnNumbers k) :
    Good (n + 1) (e.admitAndEmit p m marker o nowUs report).1 := by
  unfold admitAndEmit at hown ⊢
  cases hm : pacedQueue m with
  | none => exact good_numberAndEmit_free h hp hm marker o nowUs report
  | some k =>
    have hk := hown k hm
    rw [hm] at hk
    obtain ⟨hgood, hopen, hflags⟩ :=
      good_admitPacket h p m marker nowUs fun hroll => hk (.inl hroll)
    dsimp only at hk ⊢
    split
    · rename_i hadm
      rw [if_pos hadm] at hk
      obtain ⟨hact, hdrop⟩ := hflags hadm
      refine good_numberAndEmit_paced hgood hp hm hact hdrop marker o nowUs report ?_
      intro hsome hfail
      rcases hopen with hnil | ⟨hsame, hkept, ht⟩
      · exact ownNumbers_of_nil hnil
      · rw [ht] at hsome
        exact (hk (.inr ⟨hsome, hfail⟩)).congr hsame hkept
    · exact (hgood.invalidateKnown _ _).mono (Nat.le_succ n)

/-- **One packet** keeps the invariant, whatever fails. -/
theorem good_processLocal (h : Good n e) (hp : p.tag = n) (decision : Option Bool) (o : Outcome)
    (nowUs : ℤ) (report : DropReport)
    (hown : ∀ k ∈ pacedQueue m, e.session.authorized m.remoteSlot m.assignmentGeneration = true →
      12 ≤ p.len → (e.queues k).rollsBack p.timestamp = true ∨
        (translate e.translator p.ssrc p.seq).isSome = true ∧
        (e.processLocal p m decision o nowUs report).2.2 = false → e.OwnNumbers k) :
    Good (n + 1) (e.processLocal p m decision o nowUs report).1 := by
  unfold processLocal at hown ⊢
  by_cases hg : (!e.session.authorized m.remoteSlot m.assignmentGeneration ||
      decide (p.len < 12)) = true
  · rw [if_pos hg]
    exact h.mono (Nat.le_succ n)
  rw [if_neg hg] at hown ⊢
  obtain ⟨hauth, hlen⟩ : e.session.authorized m.remoteSlot m.assignmentGeneration = true ∧
      12 ≤ p.len := by simpa using hg
  have hgo := fun k hk => hown k hk hauth hlen
  dsimp only at hgo ⊢
  rcases hm : pacedQueue m with _ | (slot | slot)
  · rw [hm] at hgo
    exact good_admitAndEmit h hp _ o nowUs report (hm ▸ hgo)
  · rw [hm] at hgo
    exact good_admitAndEmit h hp _ o nowUs report (hm ▸ hgo)
  · rw [hm] at hgo
    dsimp only at hgo ⊢
    split
    · rename_i hact
      rw [if_pos hact] at hgo
      exact good_admitAndEmit h hp _ o nowUs report (hm ▸ hgo)
    -- no frame is open; the backlog is trimmed first
    rename_i hact
    obtain ⟨hgood, hinput⟩ := good_boundBacklog h (.screen slot) nowUs report
    have hidle := (congrArg (·.2.2.1) hinput).trans (Bool.eq_false_of_not_eq_true hact)
    split
    · exact (hgood.invalidateKnown _ _).mono (Nat.le_succ n)
    · refine good_admitAndEmit hgood hp _ o nowUs _ fun k hk _ => ?_
      obtain rfl : k = .screen slot := Option.some.inj (hk.symm.trans hm)
      exact ownNumbers_of_nil (openFrame_of_idle hgood hidle)

end Egress

/-! ### Runs -/

namespace Station

open Egress

lemma good_step {s : Station} {a : Op} (h : Good s.serial s.egress) (ha : s.GivesBackOwn a) :
    Good (s.step a).serial (s.step a).egress := by
  cases a with
  | packet p m decision o nowUs =>
    exact good_processLocal (p := p.stamp s.serial) h rfl decision o nowUs .init
      fun k hk hauth hlen hroll => ha k hk ⟨hauth, hlen, hroll⟩
  | reject m => exact good_rejectFrame h m ha
  | drain k accepts nowUs remaining => exact good_drain h k accepts nowUs remaining
  | retransmit rtxSsrc sourceSeq o nowUs => exact good_retransmit h rtxSsrc sourceSeq o nowUs
  | drainRtx accepts nowUs remaining => exact good_drainRtx h accepts nowUs remaining
  | session v => exact h.of_eq rfl rfl rfl rfl rfl

end Station

lemma Egress.Good.indexFresh {e : Egress ℕ} {n : ℕ} (h : e.Good n) : e.IndexFresh := by
  intro i j v w hij hv hw hs hseq
  have hle : (e.wire : Multiset (Wire ℕ)) ≤ e.inFlight := by
    unfold Egress.inFlight
    generalize (∑ k, e.queued k) = rest
    exact (Multiset.le_add_right _ _).trans (Multiset.le_add_right _ _)
  have hnodup : e.wire.Nodup := Multiset.coe_nodup.1 (Multiset.nodup_of_le hle h.flight)
  have hvw : v ≠ w := by
    rintro rfl
    have hlt := (List.getElem?_eq_some_iff.1 hv).1
    exact hij.ne ((List.getElem?_inj hlt hnodup).1 (hv.trans hw.symm))
  have hvk : v ∈ e.kept v.ssrc := h.kept v (Multiset.mem_of_le hle (mem_of_getElem? hv))
  have hwk : w ∈ e.kept v.ssrc := by
    rw [hs]
    exact h.kept w (Multiset.mem_of_le hle (mem_of_getElem? hw))
  obtain ⟨a, ha⟩ := mem_iff_getElem?.1 hvk
  obtain ⟨b, hb⟩ := mem_iff_getElem?.1 hwk
  have hab : a ≠ b := by
    rintro rfl
    exact hvw (Option.some.inj (ha.symm.trans hb))
  cases hnext : e.translator.next v.ssrc with
  | none =>
    rw [h.unseen _ hnext] at hvk
    exact absurd hvk not_mem_nil
  | some u => exact ⟨a, b, ha, hb, (h.numbered _ u hnext).far ha hb hseq hab⟩

/-- **Numbers on the wire.** In every run in which a frame that is rolled back gives back the
numbers of its own packets, two packets of one SSRC that the network got carry the same number only
if at least 65535 numbers that were kept were drawn between theirs. -/
theorem wire_numbers_fresh (session : Session) {ops : List Op}
    (h : Runs.Along Station.step Station.GivesBackOwn (.init session) ops) :
    (Station.run session ops).egress.IndexFresh :=
  (Runs.run_inv_along Station.step (I := fun s => s.egress.Good s.serial)
    (fun _ _ hg hc => Station.good_step hg hc) (Egress.good_init session) h).indexFresh

def steady : Session :=
  { acceptsWork := true, ownerValue := 0, transportGeneration := 0, addressGeneration := 0,
    addr := 0, authorized := fun _ _ => true, videoReady := true }

def allWell : Outcome :=
  { midWritten := true, isProtected := true, encLen := 100, reserved := true, pacingBps := 0,
    allocated := true, sent := true }

def noLayers : Svc.Descriptor := ⟨0, 0, 0, 0, false, false, false, false, false, false⟩

def audioPacket (ssrc : UInt32) : Op :=
  .packet ⟨100, 0, true, 5, ssrc, 0⟩
    { publisher := 2, svc := noLayers, source := .audio, videoSsrc := 0,
      assignmentGeneration := 1, remoteSlot := 0, hasVideo := false, isAudio := true,
      hasSvc := false, isKeyframe := false } none allWell 0

def screenPacket (ssrc route timestamp : UInt32) (marker : Bool) : Op :=
  .packet ⟨100, timestamp, marker, 7, ssrc, 0⟩
    { publisher := 1, svc := noLayers, source := .screen, videoSsrc := route,
      assignmentGeneration := 1, remoteSlot := 0, hasVideo := true, isAudio := false,
      hasSvc := false, isKeyframe := false } none allWell 0

def drainScreen : Op := .drain (.screen ⟨0, by decide⟩) (fun _ => true) 10000000 4

/-- Audio, and a screen whose second frame takes the place of an unfinished one. Later audio draws
a number of the screen's SSRC while that frame is open. -/
def cleanRun : List Op :=
  [audioPacket 9, screenPacket 7 7 0 false, screenPacket 7 7 1 false, audioPacket 7,
    screenPacket 7 7 1 true, drainScreen]

theorem wire_numbers_fresh_clean :
    Runs.Along Station.step Station.GivesBackOwn (.init steady) cleanRun ∧
      (Station.run steady cleanRun).egress.IndexFresh := by
  have h : Runs.Along Station.step Station.GivesBackOwn (.init steady) cleanRun := by
    decide +kernel
  exact ⟨h, wire_numbers_fresh steady h⟩

/-- **No packet is in two places.** Under the same condition the packets on the wire, in the paced
queues and among the waiting retransmissions are all different, and each of them still has the
number that was drawn for it. -/
theorem in_flight_once (session : Session) {ops : List Op}
    (h : Runs.Along Station.step Station.GivesBackOwn (.init session) ops) :
    let e := (Station.run session ops).egress
    e.inFlight.Nodup ∧ ∀ w ∈ e.inFlight, w ∈ e.kept w.ssrc :=
  have hgood := Runs.run_inv_along Station.step (I := fun s => s.egress.Good s.serial)
    (fun _ _ hg hc => Station.good_step hg hc) (Egress.good_init session) h
  ⟨hgood.flight, hgood.kept⟩

theorem in_flight_once_clean : (Station.run steady cleanRun).egress.inFlight.Nodup :=
  (in_flight_once steady (by decide +kernel)).1

-- Without the condition: a screen with SSRC 7 on a route with SSRC 9 is rolled back, and the
-- number taken back is one that audio with SSRC 9 has used.
example : (Station.run steady [audioPacket 9, screenPacket 7 9 0 false,
    screenPacket 7 9 1 false, audioPacket 9]).egress.wire.map (fun w => (w.ssrc, w.seq)) =
    [(9, 5), (9, 5)] := by decide +kernel

/-! ### Numbers that are drawn and not sent -/

def rtxWell : Egress.RtxOutcome :=
  { built := true, isProtected := true, encLen := 100, chargedBytes := 102, allocated := true }

/-- A retransmission at the time `t`, drained `late` microseconds later. -/
def retransmission (t late : ℤ) : List Op :=
  [.retransmit 3 0 rtxWell t, .drainRtx (fun _ => true) (t + late) 1]

/-- A retransmission that is sent, some that expire in the queue, and one that is sent. -/
def expiringRun (times : List ℤ) : List Op :=
  retransmission 0 0 ++ ((times.flatMap fun t => retransmission t 200001) ++
    retransmission (300000 * (times.length + 1)) 0)

def expiryTimes : List ℤ := (List.range 65535).map fun i : ℕ => 300000 * (i + 1)

/-- Between two retransmissions nothing waits; `v` is the next number. -/
structure Between (s : Station) (v : UInt16) (l : List (Wire ℕ)) : Prop where
  session : s.egress.session = steady
  queues : s.egress.queues = fun _ => .init
  rtx : ∃ cells, s.egress.pacedRtx = ⟨⟨cells, 0, 0, 0⟩, 0, rtxMaxBytes, rtxMaxResidenceUs⟩
  translator : s.egress.translator.WF
  next : ∃ t, translate s.egress.translator 3 0 = some (t, v)
  wire : s.egress.wire = l

variable {v : UInt16} {l : List (Wire ℕ)} {s : Station}

lemma Between.retransmit (h : Between s v l) (t : ℤ) :
    ∃ t' cells x, translate s.egress.translator 3 0 = some (t', v) ∧
      x.data = ⟨3, v, s.serial⟩ ∧ x.enqueuedAtUs = t ∧
      Egress.priorityEntryValid steady x ∧
      s.egress.retransmit 3 0 s.serial rtxWell t =
        { s.egress with
          translator := t'
          kept := update s.egress.kept 3 (⟨3, v, s.serial⟩ :: s.egress.kept 3)
          pacedRtx := ⟨⟨update cells 0 x, 0, 1, 1⟩, 100, rtxMaxBytes,
            rtxMaxResidenceUs⟩ } := by
  obtain ⟨cells, hc⟩ := h.rtx
  obtain ⟨t', ht⟩ := h.next
  refine ⟨t', cells, ⟨⟨3, v, s.serial⟩, 100, 0, t, 0, 0, 0, 102⟩, ht, rfl, rfl, rfl, ?_⟩
  unfold Egress.retransmit Egress.draw
  rw [ht]
  dsimp only [Option.map_some]
  rw [if_pos (show (rtxWell.built && rtxWell.isProtected) = true from rfl), hc, h.session]
  rfl

/-- A drain of that packet: it expires after two hundred milliseconds, and is sent before. -/
lemma drain_one (cells : ℕ → PriorityEntry (Wire ℕ)) (x : PriorityEntry (Wire ℕ))
    (hx : Egress.priorityEntryValid steady x) (nowUs : ℤ) :
    (⟨⟨update cells 0 x, 0, 1, 1⟩, 100, rtxMaxBytes, rtxMaxResidenceUs⟩ :
        PriorityQueue (Wire ℕ)).drain (Egress.priorityEntryValid steady) (fun _ => true) nowUs 1 =
      (⟨⟨update cells 0 x, 0, 0, 0⟩, 0, rtxMaxBytes, rtxMaxResidenceUs⟩,
        if rtxMaxResidenceUs < nowUs - x.enqueuedAtUs then [.expired x] else [.sent x]) := by
  have hhead : (⟨⟨update cells 0 x, 0, 1, 1⟩, 100, rtxMaxBytes, rtxMaxResidenceUs⟩ :
      PriorityQueue (Wire ℕ)).headEntry = x := by
    exact update_self (0 : ℕ) x cells
  have hexp : (⟨⟨update cells 0 x, 0, 1, 1⟩, 100, rtxMaxBytes, rtxMaxResidenceUs⟩ :
      PriorityQueue (Wire ℕ)).expires nowUs =
      decide (rtxMaxResidenceUs < nowUs - x.enqueuedAtUs) := by
    unfold PriorityQueue.expires
    rw [hhead, Bool.eq_iff_iff]
    simp only [Bool.and_eq_true, decide_eq_true_eq]
    constructor
    · intro h
      exact h.2
    · intro h
      have hpos : 0 < rtxMaxResidenceUs := by decide
      exact ⟨⟨hpos, by omega⟩, h⟩
  unfold PriorityQueue.drain
  unfold PriorityQueue.drainLoop
  rw [if_neg (by simp), hhead, hx, hexp]
  by_cases hlate : rtxMaxResidenceUs < nowUs - x.enqueuedAtUs
  · simp only [hlate, decide_true]
    rfl
  · simp only [hlate, decide_false]
    rfl

/-- **One retransmission** moves the next number on, whether it is sent or expires. -/
lemma Between.retransmission (h : Between s v l) (t late : ℤ) :
    Runs.Along Station.step Station.GivesBackOwn s (retransmission t late) ∧
      Between (Runs.run Station.step s (retransmission t late)) (v + 1)
        (if rtxMaxResidenceUs < late then l else l ++ [⟨3, v, s.serial⟩]) := by
  obtain ⟨t', cells, x, ht, hdata, htime, hvalid, hretransmit⟩ := h.retransmit t
  refine ⟨⟨trivial, trivial, trivial⟩, ?_⟩
  have hdrain := drain_one cells x hvalid (t + late)
  rw [htime, add_sub_cancel_left] at hdrain
  change Between ⟨(s.egress.retransmit 3 0 s.serial rtxWell t).drainRtx (fun _ => true)
    (t + late) 1, s.serial + 1⟩ (v + 1) _
  rw [hretransmit]
  unfold Egress.drainRtx
  rw [h.session, hdrain]
  refine ⟨rfl, h.queues, ⟨_, rfl⟩, translate_wf h.translator ht, ?_, ?_⟩
  · exact translate_of_next (next_translate_self h.translator ht) 0
  rw [Egress.wire_record]
  change s.egress.wire ++ _ = _
  rw [h.wire]
  by_cases hlate : rtxMaxResidenceUs < late
  · rw [if_pos hlate, if_pos hlate]
    exact append_nil l
  · rw [if_neg hlate, if_neg hlate, ← hdata]
    rfl

/-- Retransmissions that expire draw numbers and leave the wire as it is. -/
lemma Between.expiring (h : Between s v l) (times : List ℤ) :
    let ops := times.flatMap fun t => Pipeline.retransmission t 200001
    Runs.Along Station.step Station.GivesBackOwn s ops ∧
      Between (Runs.run Station.step s ops) (v + UInt16.ofNat times.length) l := by
  dsimp only
  induction times generalizing s v with
  | nil =>
    refine ⟨trivial, ?_⟩
    rw [show v + UInt16.ofNat ([] : List ℤ).length = v from UInt16.add_zero v]
    exact h
  | cons t times ih =>
    obtain ⟨halong, hbetween⟩ := h.retransmission t 200001
    rw [if_pos (by decide)] at hbetween
    obtain ⟨halong', hbetween'⟩ := ih hbetween
    have hnext : v + UInt16.ofNat (t :: times).length = v + 1 + UInt16.ofNat times.length := by
      rw [length_cons, Nat.add_comm, UInt16.ofNat_add, ← add_assoc]
      rfl
    rw [flatMap_cons, Runs.run_append, hnext]
    exact ⟨(Runs.along_append ..).2 ⟨halong, halong'⟩, hbetween'⟩

lemma between_init : Between (.init steady) 0 [] where
  session := rfl
  queues := rfl
  rtx := ⟨_, rfl⟩
  translator := Translator.wf_init
  next := ⟨_, rfl⟩
  wire := rfl

lemma expiringRun_repeats {times : List ℤ} (hlen : times.length = 65535) :
    Runs.Along Station.step Station.GivesBackOwn (.init steady) (expiringRun times) ∧
      ¬ (Station.run steady (expiringRun times)).egress.WindowFresh := by
  obtain ⟨h1, b1⟩ := between_init.retransmission 0 0
  obtain ⟨h2, b2⟩ := b1.expiring times
  obtain ⟨h3, b3⟩ := b2.retransmission (300000 * (times.length + 1)) 0
  rw [← Runs.run_append, ← Runs.run_append] at b3
  refine ⟨(Runs.along_append ..).2 ⟨h1, (Runs.along_append ..).2 ⟨h2, h3⟩⟩, ?_⟩
  intro hfresh
  obtain ⟨tag, hwire⟩ : ∃ tag, (Station.run steady (expiringRun times)).egress.wire =
      [⟨3, 0, 0⟩, ⟨3, 0 + 1 + UInt16.ofNat times.length, tag⟩] := ⟨_, b3.wire⟩
  refine hfresh 3 0 1 ⟨3, 0, 0⟩ ⟨3, 0 + 1 + UInt16.ofNat times.length, tag⟩ Nat.zero_lt_one
    (by omega) ?_ ?_ ?_
  · unfold Egress.sentFor
    rw [hwire]
    rfl
  · unfold Egress.sentFor
    rw [hwire]
    rfl
  · rw [hlen]
    rfl

/-- **Numbers lost.** In a run in which only retransmissions draw numbers, 65535 of them expire
between two that are sent, and these two, one after the other on the wire, carry the same
number. -/
theorem expired_retransmissions_repeat :
    Runs.Along Station.step Station.GivesBackOwn (.init steady) (expiringRun expiryTimes) ∧
      ¬ (Station.run steady (expiringRun expiryTimes)).egress.WindowFresh := by
  apply expiringRun_repeats
  rw [expiryTimes, length_map, length_range]

end MezonSfu.Pipeline
