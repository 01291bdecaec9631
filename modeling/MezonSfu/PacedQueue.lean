import MezonSfu.PacedSend

/-!
What the operations of a paced send queue do to the list of its entries.

The ready entries come first, the ones of the unfinished frame after them. The trim and the
drain shorten the list at the front, within the ready ones; a rollback takes the unfinished ones
away. Times are left open: a trim rebases them.
-/

namespace MezonSfu.Paced

open List

variable {Pkt : Type*}

/-- What of an entry stays as it was when it was queued. -/
def Entry.fixed (e : Entry Pkt) : Entry Pkt :=
  { e with releaseAtUs := 0, metadata := { e.metadata with frameEnd := false } }

@[simp] lemma Entry.fixed_data (e : Entry Pkt) : e.fixed.data = e.data := rfl
@[simp] lemma Entry.fixed_markEnd (e : Entry Pkt) : e.markEnd.fixed = e.fixed := rfl

namespace PacedSend

def contents (q : PacedSend Pkt) : List (Entry Pkt) := q.toList.map Entry.fixed

/-- Everything about the input frame that is not in the ring. -/
def inputView (q : PacedSend Pkt) : UInt32 × ℕ × Bool × Bool × Bool × ℕ × UInt32 × UInt16 :=
  (q.inputTimestamp, q.inputFrameQueuedPackets, q.inputFrameActive, q.dropInputFrame,
    q.inputFrameIsKeyframe, q.rolledBackPublisherPeerId, q.rolledBackMediaSsrc,
    q.rolledBackPacketCount)

/-- The counts fit together, and only an open frame that is not dropped has entries. -/
structure WF (q : PacedSend Pkt) : Prop where
  ring : q.ring.WF capacity
  count : q.ring.count = q.readyCount + q.inputFrameQueuedPackets
  idle : q.inputFrameActive = false → q.inputFrameQueuedPackets = 0
  dropped : q.dropInputFrame = true → q.inputFrameQueuedPackets = 0

variable {q r s : PacedSend Pkt} {n m : ℕ}

lemma capacity_pos : 0 < capacity := by decide

@[simp] lemma length_contents : q.contents.length = q.ring.count := by
  simp [contents, toList]

@[simp] lemma length_toList : q.toList.length = q.ring.count := by
  simp [toList]

lemma wf_init [Inhabited Pkt] : (init : PacedSend Pkt).WF where
  ring := Ring.wf_empty _ capacity_pos
  count := rfl
  idle _ := rfl
  dropped _ := rfl

@[simp] lemma contents_init [Inhabited Pkt] : (init : PacedSend Pkt).contents = [] := rfl

/-! ### Shortening at the front -/

/-- `r` is `q` without its first `n` entries, all of them ready. -/
structure Shrunk (q r : PacedSend Pkt) (n : ℕ) : Prop where
  le : n ≤ q.readyCount
  ring : r.ring.WF capacity
  contents : r.contents = q.contents.drop n
  count : r.ring.count = q.ring.count - n
  ready : r.readyCount = q.readyCount - n
  input : r.inputView = q.inputView

lemma Shrunk.refl (h : q.ring.WF capacity) : Shrunk q q 0 where
  le := Nat.zero_le _
  ring := h
  contents := rfl
  count := rfl
  ready := rfl
  input := rfl

lemma Shrunk.trans (h : Shrunk q r n) (h' : Shrunk r s m) : Shrunk q s (n + m) where
  le := by
    have h1 := h.le
    have h2 := h'.le
    have h3 := h.ready
    omega
  ring := h'.ring
  contents := by rw [h'.contents, h.contents, drop_drop]
  count := by
    have h1 := h.count
    have h2 := h'.count
    omega
  ready := by
    have h1 := h.ready
    have h2 := h'.ready
    omega
  input := h'.input.trans h.input

lemma Shrunk.wf (h : Shrunk q r n) (hq : q.WF) : r.WF where
  ring := h.ring
  count := by
    have h1 := h.count
    have h2 := h.ready
    have h3 := h.le
    have h4 := hq.count
    have h5 : r.inputFrameQueuedPackets = q.inputFrameQueuedPackets := congrArg (·.2.1) h.input
    omega
  idle := by
    have h1 : r.inputFrameActive = q.inputFrameActive := congrArg (·.2.2.1) h.input
    have h2 : r.inputFrameQueuedPackets = q.inputFrameQueuedPackets := congrArg (·.2.1) h.input
    rw [h1, h2]
    exact hq.idle
  dropped := by
    have h1 : r.dropInputFrame = q.dropInputFrame := congrArg (·.2.2.2.1) h.input
    have h2 : r.inputFrameQueuedPackets = q.inputFrameQueuedPackets := congrArg (·.2.1) h.input
    rw [h1, h2]
    exact hq.dropped

lemma toList_eq_cons (h : q.ring.WF capacity) (hc : 0 < q.ring.count) :
    q.toList = q.headEntry :: q.advance.toList := by
  have hidx : q.ring.index capacity 0 = q.ring.head := Nat.mod_eq_of_lt h.head_lt
  have hcons := @Ring.toList_eq_cons _ capacity q.ring hc
  rw [hidx] at hcons
  exact hcons

lemma shrunk_advance (h : q.ring.WF capacity) (hr : 0 < q.readyCount)
    (hc : q.readyCount ≤ q.ring.count) : Shrunk q q.advance 1 where
  le := hr
  ring := h.pop (hr.trans_le hc)
  contents := by
    unfold PacedSend.contents
    rw [toList_eq_cons h (hr.trans_le hc)]
    rfl
  count := rfl
  ready := rfl
  input := rfl

lemma Shrunk.of_ring_eq (h : Shrunk q r n) (hr : s.ring = r.ring)
    (hc : s.readyCount = r.readyCount) (hi : s.inputView = r.inputView) : Shrunk q s n where
  le := h.le
  ring := by rw [hr]; exact h.ring
  contents := by
    rw [← h.contents]
    unfold PacedSend.contents toList
    rw [hr]
  count := by rw [hr]; exact h.count
  ready := by rw [hc]; exact h.ready
  input := hi.trans h.input

lemma shrunk_rewindEmpty (h : q.ring.WF capacity) : Shrunk q q.rewindEmpty 0 := by
  unfold rewindEmpty
  split
  · rename_i h0
    refine ⟨Nat.zero_le _, ⟨capacity_pos, ?_, ?_⟩, ?_, rfl, rfl, rfl⟩
    · exact h.count_le
    · rw [h0]
      rfl
    · have hnil : q.contents = [] := eq_nil_of_length_eq_zero (by rw [length_contents, h0])
      rw [hnil]
      exact eq_nil_of_length_eq_zero (by rw [length_contents]; exact h0)
  · exact Shrunk.refl h

lemma map_rebaseBacklog (h : q.ring.WF capacity) {β : Type*} {f : Entry Pkt → β}
    (hf : ∀ e t, f { e with releaseAtUs := t } = f e) (nowUs : ℤ) :
    (q.rebaseBacklog nowUs).toList.map f = q.toList.map f := by
  unfold toList rebaseBacklog
  rw [(Ring.toList_walk h rebaseEntry nowUs).1]
  generalize q.ring.toList capacity = l
  generalize nowUs = b
  induction l generalizing b with
  | nil => rfl
  | cons e l ih =>
    rw [Ring.listWalk, map_cons, map_cons, ih]
    exact congrArg (· :: _) (hf e b)

lemma shrunk_rebaseBacklog (h : q.ring.WF capacity) (nowUs : ℤ) :
    Shrunk q (q.rebaseBacklog nowUs) 0 where
  le := Nat.zero_le _
  ring := { h with }
  contents := map_rebaseBacklog h (fun _ _ => rfl) nowUs
  count := rfl
  ready := rfl
  input := rfl

variable {metadata : Metadata} {allocated : Bool}

lemma enqueue_cases {data : Pkt} {len dst pacingBps : ℕ} {nowUs : ℤ} (h : q.WF)
    (hr : q.enqueue data len dst pacingBps metadata allocated nowUs = some r) :
    ∃ e : Entry Pkt, e.data = data ∧ e.metadata = metadata ∧ e.dst = dst ∧
      e.spanUs = span len pacingBps metadata.isKeyframe ∧
      r = { q with
        ring := q.ring.push capacity e
        nextReleaseUs := e.releaseAtUs + e.spanUs
        inputFrameQueuedPackets :=
          if q.inputFrameActive then q.inputFrameQueuedPackets + 1
          else q.inputFrameQueuedPackets } ∧
      r.ring.WF capacity ∧ r.toList = q.toList ++ [e] := by
  unfold enqueue at hr
  split at hr
  · cases hr
  rename_i hg
  have hlt : q.ring.count < capacity := by
    by_contra hge
    exact hg (.inr (.inr (.inr (Nat.le_of_not_lt hge))))
  refine ⟨{ releaseAtUs := if q.nextReleaseUs > nowUs then q.nextReleaseUs else nowUs,
            spanUs := span len pacingBps metadata.isKeyframe, dst := dst, len := len,
            metadata := metadata, data := data }, rfl, rfl, rfl, rfl,
          (Option.some.inj hr).symm, ?_, ?_⟩
  · rw [← Option.some.inj hr]
    exact h.ring.push hlt _
  · rw [← Option.some.inj hr]
    exact Ring.toList_push h.ring hlt _

lemma WF.enqueue {data : Pkt} {len dst pacingBps : ℕ}
    {nowUs : ℤ} (h : q.WF) (ha : q.inputFrameActive) (hd : q.dropInputFrame = false)
    (hr : q.enqueue data len dst pacingBps metadata allocated nowUs = some r) : r.WF := by
  obtain ⟨e, -, -, -, -, rfl, hring, -⟩ := enqueue_cases h hr
  refine ⟨hring, ?_, ?_, ?_⟩
  · have hcount := h.count
    change q.ring.count + 1 = q.readyCount +
      (if q.inputFrameActive then q.inputFrameQueuedPackets + 1 else q.inputFrameQueuedPackets)
    rw [if_pos ha]
    omega
  · intro hf
    exact absurd (ha.symm.trans hf) (by decide)
  · intro hf
    exact absurd (hd.symm.trans hf) (by decide)

/-- The mark of the last entry is not seen by a view that leaves it out. -/
lemma map_modifyLast_markEnd (h : q.ring.WF capacity) {β : Type*} {f : Entry Pkt → β}
    (hf : ∀ e, f e.markEnd = f e) :
    ((q.ring.modifyLast capacity Entry.markEnd).toList capacity).map f = q.toList.map f := by
  unfold toList
  rcases Nat.eq_zero_or_pos q.ring.count with h0 | hpos
  · have hl : ∀ l : List (Entry Pkt), l.length = 0 → l.map f = [] := by
      intro l hl
      rw [eq_nil_of_length_eq_zero hl]
      rfl
    rw [hl _ (by rw [Ring.length_toList]; exact h0), hl _ (by rw [Ring.length_toList, h0])]
  rw [Ring.toList_modifyLast h hpos, map_append, map_singleton, hf, ← map_singleton, ← map_append]
  congr 1
  have hne : q.ring.toList capacity ≠ [] := by
    intro hnil
    have := congrArg List.length hnil
    simp at this
    omega
  have hlast : (q.ring.toList capacity).getLast hne =
      q.ring.cells (q.ring.index capacity (q.ring.count - 1)) := by
    simp [Ring.toList]
  rw [← hlast, dropLast_append_getLast]

lemma finishInputFrame_spec (h : q.WF) (ha : q.inputFrameActive) :
    let r := q.finishInputFrame
    r.WF ∧ r.contents = q.contents ∧ r.readyCount = q.ring.count ∧
      r.inputFrameQueuedPackets = 0 ∧ r.inputFrameActive = false ∧
      r.rolledBackPublisherPeerId = q.rolledBackPublisherPeerId ∧
      r.rolledBackMediaSsrc = q.rolledBackMediaSsrc ∧
      r.rolledBackPacketCount = q.rolledBackPacketCount := by
  unfold finishInputFrame
  rw [if_pos ha]
  have hcount := h.count
  split
  · refine ⟨⟨{ h.ring with }, ?_, fun _ => rfl, fun _ => rfl⟩,
      map_modifyLast_markEnd h.ring Entry.fixed_markEnd, hcount.symm, rfl, rfl, rfl, rfl, rfl⟩
    exact hcount
  · exact ⟨⟨h.ring, hcount, fun _ => rfl, fun _ => rfl⟩, rfl, hcount.symm, rfl, rfl, rfl, rfl, rfl⟩

lemma getElem?_lastIndex (h : q.ring.WF capacity) (hc : 0 < q.ring.count) :
    q.toList[q.ring.count - 1]? = some (q.ring.cells q.lastIndex) := by
  have hidx : q.lastIndex = q.ring.index capacity (q.ring.count - 1) := Ring.index_last h hc
  rw [hidx]
  exact Ring.getElem?_toList (by omega)

lemma toList_rollbackEntry (h : q.ring.WF capacity) (hc : 0 < q.ring.count) :
    q.toList = q.rollbackEntry.toList ++ [q.ring.cells q.lastIndex] := by
  have hdrop : q.rollbackEntry.toList = q.toList.dropLast := Ring.toList_unpush
  have hlast : q.toList.getLast? = some (q.ring.cells q.lastIndex) := by
    rw [List.getLast?_eq_getElem?, length_toList]
    exact getElem?_lastIndex h hc
  rw [hdrop]
  exact (dropLast_append_getLast? _ hlast).symm

/-- Rolling `n` entries back takes the last `n` away and touches nothing but the notes on whose
they were. -/
lemma iterate_rollbackEntry (n : ℕ) (q : PacedSend Pkt) (h : q.ring.WF capacity)
    (hn : n ≤ q.ring.count) :
    let r := rollbackEntry^[n] q
    r.ring.WF capacity ∧ r.ring.count = q.ring.count - n ∧
      r.toList = q.toList.take (q.ring.count - n) ∧ r.readyCount = q.readyCount ∧
      r.inputFrameActive = q.inputFrameActive ∧ r.dropInputFrame = q.dropInputFrame ∧
      r.inputTimestamp = q.inputTimestamp ∧ r.rolledBackPacketCount = q.rolledBackPacketCount ∧
      r.readyFrameCount = q.readyFrameCount ∧
      r.inputFrameBaseNextReleaseUs = q.inputFrameBaseNextReleaseUs := by
  induction n generalizing q with
  | zero =>
    refine ⟨h, rfl, ?_, rfl, rfl, rfl, rfl, rfl, rfl, rfl⟩
    rw [Nat.sub_zero, ← length_toList, take_length]
    rfl
  | succ n ih =>
    have hcount : q.rollbackEntry.ring.count = q.ring.count - 1 := rfl
    obtain ⟨h1, h2, h3, hfields⟩ := ih q.rollbackEntry (h.unpush (by omega)) (by omega)
    rw [Function.iterate_succ_apply]
    refine ⟨h1, by omega, ?_, by simpa only [rollbackEntry] using hfields⟩
    rw [h3, toList_rollbackEntry h (by omega), hcount, Nat.sub_sub, Nat.add_comm 1 n,
      take_append_of_le_length (by rw [length_toList, hcount]; omega)]

lemma iterate_rollbackEntry_mediaSsrc (n : ℕ) (q : PacedSend Pkt) (h : q.ring.WF capacity)
    (hn : n ≤ q.ring.count) :
    (rollbackEntry^[n] q).rolledBackMediaSsrc =
      (((q.toList.drop (q.ring.count - n)).map (·.metadata.mediaSsrc)).find? (· ≠ 0)).getD
        q.rolledBackMediaSsrc := by
  induction n generalizing q with
  | zero =>
    rw [Nat.sub_zero, ← length_toList, drop_length]
    rfl
  | succ n ih =>
    have hcount : q.rollbackEntry.ring.count = q.ring.count - 1 := rfl
    -- the entry at the tail is overruled by any SSRC before it
    rw [Function.iterate_succ_apply, ih q.rollbackEntry (h.unpush (by omega)) (by omega),
      toList_rollbackEntry h (by omega), hcount, Nat.sub_sub, Nat.add_comm 1 n,
      drop_append_of_le_length (by rw [length_toList, hcount]; omega), map_append,
      List.find?_append, map_singleton]
    cases ((q.rollbackEntry.toList.drop (q.ring.count - (n + 1))).map
        (·.metadata.mediaSsrc)).find? (· ≠ 0) with
    | some x => rw [Option.some_or, Option.getD_some, Option.getD_some]
    | none =>
      rw [Option.none_or, Option.getD_none, List.find?_singleton]
      by_cases hx : (q.ring.cells q.lastIndex).metadata.mediaSsrc = 0
      · simp [rollbackEntry, hx]
      · simp [rollbackEntry, hx]

lemma rollbackInputFrame_of_zero (h : q.inputFrameQueuedPackets = 0) :
    q.rollbackInputFrame = q := by
  unfold rollbackInputFrame
  rw [if_pos (.inl h)]

/-- **The rollback** leaves the ready entries. -/
theorem rollbackInputFrame_spec (h : q.WF) :
    let r := q.rollbackInputFrame
    r.WF ∧ r.toList = q.toList.take q.readyCount ∧ r.readyCount = q.readyCount ∧
      r.inputFrameQueuedPackets = 0 ∧ r.inputFrameActive = q.inputFrameActive ∧
      r.dropInputFrame = q.dropInputFrame ∧ r.inputTimestamp = q.inputTimestamp := by
  have hcount := h.count
  rcases Nat.eq_zero_or_pos q.inputFrameQueuedPackets with h0 | hpos
  · rw [rollbackInputFrame_of_zero h0]
    refine ⟨h, ?_, rfl, h0, rfl, rfl, rfl⟩
    rw [show q.readyCount = q.toList.length by rw [length_toList]; omega, take_length]
  have hle : q.inputFrameQueuedPackets ≤ q.ring.count := by omega
  obtain ⟨h1, h2, h3, hr, ha, hd, ht, -⟩ := iterate_rollbackEntry q.inputFrameQueuedPackets
    { q with rolledBackPacketCount := UInt16.ofNat q.inputFrameQueuedPackets } h.ring hle
  change _ = q.readyCount at hr
  rw [show q.ring.count - q.inputFrameQueuedPackets = q.readyCount by omega] at h2 h3
  unfold rollbackInputFrame
  rw [if_neg (by omega)]
  dsimp only
  generalize rollbackEntry^[q.inputFrameQueuedPackets] _ = r at h1 h2 h3 hr ha hd ht ⊢
  split
  · rename_i h0
    have hz : q.readyCount = 0 := h2.symm.trans h0
    unfold rewindEmpty
    rw [if_pos h0]
    refine ⟨⟨⟨capacity_pos, h1.count_le, ?_⟩, ?_, fun _ => rfl, fun _ => rfl⟩, ?_, hr, rfl, ha,
      hd, ht⟩
    · rw [h2, hz]
      rfl
    · change r.ring.count = r.readyCount + 0
      omega
    · rw [hz, take_zero]
      exact eq_nil_of_length_eq_zero (by rw [length_toList]; exact h0)
  · refine ⟨⟨h1, ?_, fun _ => rfl, fun _ => rfl⟩, h3, hr, rfl, ha, hd, ht⟩
    change r.ring.count = r.readyCount + 0
    omega

/-- The notes on a rollback: how many packets were taken out, and the first SSRC there is among
the routes they were queued for. -/
lemma rollbackInputFrame_notes (h : q.WF) (h0 : q.inputFrameQueuedPackets ≠ 0) :
    q.rollbackInputFrame.rolledBackPacketCount = UInt16.ofNat q.inputFrameQueuedPackets ∧
      q.rollbackInputFrame.rolledBackMediaSsrc =
        (((q.toList.drop q.readyCount).map (·.metadata.mediaSsrc)).find? (· ≠ 0)).getD
          q.rolledBackMediaSsrc := by
  have hcount := h.count
  have hle : q.inputFrameQueuedPackets ≤ q.ring.count := by omega
  obtain ⟨-, -, -, -, -, -, -, hcnt, -⟩ := iterate_rollbackEntry q.inputFrameQueuedPackets
    { q with rolledBackPacketCount := UInt16.ofNat q.inputFrameQueuedPackets } h.ring hle
  have hssrc := iterate_rollbackEntry_mediaSsrc q.inputFrameQueuedPackets
    { q with rolledBackPacketCount := UInt16.ofNat q.inputFrameQueuedPackets } h.ring hle
  rw [show q.readyCount = q.ring.count - q.inputFrameQueuedPackets by omega]
  unfold rollbackInputFrame
  rw [if_neg (by omega)]
  dsimp only
  split
  · unfold rewindEmpty
    split
    · exact ⟨hcnt, hssrc⟩
    · exact ⟨hcnt, hssrc⟩
  · exact ⟨hcnt, hssrc⟩

/-! ### Admission -/

/-- The queue a packet is admitted to: the unfinished frame is rolled back when the packet is not
one of it. -/
def settled (q : PacedSend Pkt) (timestamp : UInt32) : PacedSend Pkt :=
  if q.rollsBack timestamp then q.rollbackInputFrame else q

/-- `r` has the entries, the counts and the notes of `q`. -/
structure SameQueue (q r : PacedSend Pkt) : Prop where
  ring : r.ring = q.ring
  ready : r.readyCount = q.readyCount
  queued : r.inputFrameQueuedPackets = q.inputFrameQueuedPackets
  publisher : r.rolledBackPublisherPeerId = q.rolledBackPublisherPeerId
  ssrc : r.rolledBackMediaSsrc = q.rolledBackMediaSsrc
  packets : r.rolledBackPacketCount = q.rolledBackPacketCount

lemma SameQueue.rfl : SameQueue q q := ⟨.refl _, .refl _, .refl _, .refl _, .refl _, .refl _⟩

lemma SameQueue.toList (h : SameQueue q r) : r.toList = q.toList := by
  unfold PacedSend.toList
  rw [h.ring]

lemma SameQueue.contents (h : SameQueue q r) : r.contents = q.contents := by
  unfold PacedSend.contents
  rw [h.toList]

lemma WF.settled (h : q.WF) (timestamp : UInt32) : (q.settled timestamp).WF := by
  unfold PacedSend.settled
  split
  · exact (rollbackInputFrame_spec h).1
  · exact h

lemma settled_queued (h : q.WF) {timestamp : UInt32}
    (hnew : (!q.inputFrameActive || q.inputTimestamp != timestamp)) :
    (q.settled timestamp).inputFrameQueuedPackets = 0 := by
  unfold settled
  split
  · exact (rollbackInputFrame_spec h).2.2.2.1
  rename_i hr
  refine h.idle ?_
  unfold rollsBack at hr
  cases ha : q.inputFrameActive with
  | false => exact Eq.refl _
  | true =>
    rw [ha] at hr hnew
    exact absurd hnew hr

lemma enterInputFrame_spec (h : q.WF) (timestamp : UInt32) (keyframe dropOnDelay : Bool)
    (maxDelayUs nowUs : ℤ) :
    let r := q.enterInputFrame timestamp keyframe dropOnDelay maxDelayUs nowUs
    SameQueue (q.settled timestamp) r ∧ r.inputFrameActive ∧ r.inputTimestamp = timestamp ∧
      (r.dropInputFrame → (q.settled timestamp).inputFrameQueuedPackets = 0) := by
  unfold enterInputFrame
  split
  · rename_i hnew
    have h0 := settled_queued h hnew
    refine ⟨?_, rfl, rfl, fun _ => h0⟩
    unfold settled at h0 ⊢
    cases hr : q.rollsBack timestamp with
    | true =>
      rw [if_pos hr] at h0
      exact ⟨rfl, rfl, h0.symm, rfl, rfl, rfl⟩
    | false =>
      rw [if_neg (by rw [hr]; decide)] at h0
      exact ⟨rfl, rfl, h0.symm, rfl, rfl, rfl⟩
  · rename_i hnew
    have hopen : q.inputFrameActive ∧ q.inputTimestamp = timestamp := by
      cases ha : q.inputFrameActive <;> simp_all
    have hsame : q.settled timestamp = q := by
      unfold settled rollsBack
      rw [hopen.1, hopen.2]
      simp
    rw [hsame]
    exact ⟨SameQueue.rfl, hopen.1, hopen.2, h.dropped⟩

/-- **Admission** changes the list of entries only by rolling the unfinished frame back. -/
theorem admitFramePacket_spec (h : q.WF) (timestamp : UInt32)
    (marker keyframe dropOnDelay : Bool) (maxDelayUs nowUs : ℤ) :
    let r := q.admitFramePacket timestamp marker keyframe dropOnDelay maxDelayUs nowUs
    r.1.WF ∧ SameQueue (q.settled timestamp) r.1 ∧
      (r.2 → r.1.inputFrameActive ∧ r.1.dropInputFrame = false) := by
  obtain ⟨hsame, hact, -, hdrop⟩ :=
    enterInputFrame_spec h timestamp keyframe dropOnDelay maxDelayUs nowUs
  have hwf := h.settled timestamp
  unfold admitFramePacket
  dsimp only
  generalize q.enterInputFrame timestamp keyframe dropOnDelay maxDelayUs nowUs = r at *
  generalize q.settled timestamp = q' at *
  generalize ht : (if keyframe then { r with inputFrameIsKeyframe := true } else r) = t
  obtain ⟨hs, ha, hd⟩ : SameQueue q' t ∧ t.inputFrameActive ∧
      (t.dropInputFrame → q'.inputFrameQueuedPackets = 0) := by
    rw [← ht]
    split
    · exact ⟨{ hsame with }, hact, hdrop⟩
    · exact ⟨hsame, hact, hdrop⟩
  have hcount : t.ring.count = t.readyCount + t.inputFrameQueuedPackets := by
    rw [hs.ring, hs.ready, hs.queued]
    exact hwf.count
  have hring : t.ring.WF capacity := by
    rw [hs.ring]
    exact hwf.ring
  split
  · rename_i hm
    have hdt : t.dropInputFrame := by
      simp only [Bool.and_eq_true, Bool.not_eq_true', Bool.not_eq_false'] at hm
      exact hm.2
    have h0 : t.inputFrameQueuedPackets = 0 := hs.queued.trans (hd hdt)
    refine ⟨⟨hring, hcount, fun _ => h0, fun _ => h0⟩, { hs with }, ?_⟩
    intro hadm
    rw [hdt] at hadm
    exact absurd hadm (by decide)
  · refine ⟨⟨hring, hcount, ?_, fun hf => hs.queued.trans (hd hf)⟩, hs, ?_⟩
    · intro hf
      exact absurd (ha.symm.trans hf) (by decide)
    · intro hadm
      refine ⟨ha, ?_⟩
      simpa using hadm

end PacedSend

end MezonSfu.Paced
