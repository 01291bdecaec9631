import MezonSfu.PacedCalls
import MezonSfu.Runs

/-!
The release times of a paced send queue.

An entry is released once the one before it is off the wire: queueing appends after
`nextReleaseUs`, a rollback goes back to what it was before the frame, and a trim lays the whole
queue out anew. A packet may be queued with no input frame open, and then stays out of every
rollback. One queued for a refused frame breaks the layout: it stays counted when the marker closes
the frame, and a rollback then takes the packet behind it and goes back too far.
-/

namespace MezonSfu.Paced

open List

variable {Pkt : Type*}

/-- Times of release with the spans on the wire: none overlap, and all are over at `t`. -/
def SpacedBy (t : ℤ) (l : List (ℤ × ℤ)) : Prop :=
  l.IsChain (fun a b => a.1 + a.2 ≤ b.1) ∧ ∀ a ∈ l.getLast?, a.1 + a.2 ≤ t

lemma spacedBy_nil (t : ℤ) : SpacedBy t [] := ⟨.nil, nofun⟩

lemma SpacedBy.concat {t : ℤ} {l : List (ℤ × ℤ)} (h : SpacedBy t l) {a : ℤ × ℤ} (ha : t ≤ a.1) :
    SpacedBy (a.1 + a.2) (l ++ [a]) := by
  refine ⟨isChain_append.2 ⟨h.1, .singleton a, ?_⟩, ?_⟩
  · intro b hb c hc
    cases hc
    exact (h.2 b hb).trans ha
  · intro b hb
    rw [List.getLast?_concat] at hb
    cases hb
    exact le_rfl

lemma SpacedBy.tail {t : ℤ} {l : List (ℤ × ℤ)} (h : SpacedBy t l) : SpacedBy t l.tail := by
  refine ⟨h.1.tail, fun a ha => h.2 a ?_⟩
  cases l with
  | nil => cases ha
  | cons b l =>
    rw [List.getLast?_cons, show l.getLast? = some a from ha]
    rfl

namespace PacedSend

def times (q : PacedSend Pkt) : List (ℤ × ℤ) := q.toList.map fun e => (e.releaseAtUs, e.spanUs)

/-- The queue is over at `nextReleaseUs`, and the part of it that a rollback would leave at the
time the rollback goes back to. What a rollback takes is at the end, behind the ready entries. -/
structure Timed (q : PacedSend Pkt) : Prop where
  ring : q.ring.WF capacity
  le : q.readyCount + q.inputFrameQueuedPackets ≤ q.ring.count
  idle : q.inputFrameActive = false → q.inputFrameQueuedPackets = 0
  dropped : q.dropInputFrame = true → q.inputFrameQueuedPackets = 0
  spaced : SpacedBy q.nextReleaseUs q.times
  base : q.inputFrameActive = true → SpacedBy q.inputFrameBaseNextReleaseUs
    (q.times.take (q.ring.count - q.inputFrameQueuedPackets))

variable {q r : PacedSend Pkt}

@[simp] lemma length_times : q.times.length = q.ring.count := by simp [times]

lemma times_eq_nil (h : q.ring.count = 0) : q.times = [] :=
  eq_nil_of_length_eq_zero (by rw [length_times, h])

lemma timed_init [Inhabited Pkt] : (init : PacedSend Pkt).Timed where
  ring := wf_init.ring
  le := le_rfl
  idle _ := rfl
  dropped _ := rfl
  spaced := spacedBy_nil _
  base := nofun

lemma Timed.ready_le (ht : q.Timed) : q.readyCount ≤ q.ring.count :=
  (Nat.le_add_right _ _).trans ht.le

/-- An empty queue may go back to any time. -/
lemma Timed.rewind (ht : q.Timed) (h0 : q.ring.count = 0) (t : ℤ) :
    ({ q.rewindEmpty with nextReleaseUs := t } : PacedSend Pkt).Timed := by
  have hr := shrunk_rewindEmpty ht.ring
  have hempty : q.rewindEmpty.ring.count = 0 := hr.count.trans h0
  have hnil : q.rewindEmpty.times = [] := times_eq_nil hempty
  have hin := hr.input
  simp only [inputView, Prod.mk.injEq] at hin
  obtain ⟨-, hq, ha, hd, -⟩ := hin
  have hle := ht.le
  have hready := hr.ready
  refine ⟨hr.ring, ?_, ?_, ?_, ?_, fun _ => ?_⟩
  · change q.rewindEmpty.readyCount + q.rewindEmpty.inputFrameQueuedPackets ≤
      q.rewindEmpty.ring.count
    omega
  · change q.rewindEmpty.inputFrameActive = false → q.rewindEmpty.inputFrameQueuedPackets = 0
    rw [hq, ha]
    exact ht.idle
  · change q.rewindEmpty.dropInputFrame = true → q.rewindEmpty.inputFrameQueuedPackets = 0
    rw [hq, hd]
    exact ht.dropped
  · change SpacedBy t q.rewindEmpty.times
    rw [hnil]
    exact spacedBy_nil _
  · change SpacedBy _ (q.rewindEmpty.times.take _)
    rw [hnil, take_nil]
    exact spacedBy_nil _

lemma Timed.rewindEmpty (ht : q.Timed) : q.rewindEmpty.Timed := by
  by_cases h0 : q.ring.count = 0
  · exact ht.rewind h0 q.rewindEmpty.nextReleaseUs
  · rwa [PacedSend.rewindEmpty, if_neg h0]

lemma Timed.enqueue {data : Pkt} {len dst pacingBps : ℕ} {metadata : Metadata} {allocated : Bool}
    {nowUs : ℤ} (ht : q.Timed) (hd : q.dropInputFrame = false)
    (hr : q.enqueue data len dst pacingBps metadata allocated nowUs = some r) : r.Timed := by
  unfold PacedSend.enqueue at hr
  split at hr
  · cases hr
  rename_i hg
  obtain rfl := Option.some.inj hr
  have hroom : q.ring.count < capacity := by omega
  have hpush := Ring.toList_push ht.ring hroom
  have hle := ht.le
  refine ⟨ht.ring.push hroom _, ?_, fun ha => ?_, fun hf => ?_, ?_, fun ha => ?_⟩
  · change q.readyCount + _ ≤ q.ring.count + 1
    dsimp only
    split_ifs <;> omega
  · change q.inputFrameActive = false at ha
    dsimp only
    rw [ha, if_neg (by decide)]
    exact ht.idle ha
  · exact absurd (hd.symm.trans hf) (by decide)
  · change SpacedBy _ (((q.ring.push capacity _).toList capacity).map _)
    rw [hpush, map_append]
    refine SpacedBy.concat ht.spaced ?_
    dsimp only
    split_ifs <;> omega
  · change q.inputFrameActive = true at ha
    change SpacedBy _ ((((q.ring.push capacity _).toList capacity).map _).take
      (q.ring.count + 1 - _))
    rw [hpush, map_append, if_pos ha, Nat.add_sub_add_right, take_append_of_le_length]
    · exact ht.base ha
    · rw [length_map, Ring.length_toList]
      exact Nat.sub_le _ _

lemma Timed.finishInputFrame (ht : q.Timed) : q.finishInputFrame.Timed := by
  unfold PacedSend.finishInputFrame
  split_ifs with ha h0
  · refine ⟨{ ht.ring with }, ht.le, fun _ => rfl, fun _ => rfl, ?_, nofun⟩
    change SpacedBy _ (((q.ring.modifyLast capacity Entry.markEnd).toList capacity).map _)
    rw [map_modifyLast_markEnd ht.ring fun _ => rfl]
    exact ht.spaced
  · exact ⟨ht.ring, ht.le, fun _ => rfl, fun _ => rfl, ht.spaced, nofun⟩
  · exact ht

/-- A rollback takes what is left back to the time before the frame. -/
lemma Timed.rollbackInputFrame (ht : q.Timed) :
    q.rollbackInputFrame.Timed ∧ q.rollbackInputFrame.inputFrameQueuedPackets = 0 := by
  have hle := ht.le
  rcases Nat.eq_zero_or_pos q.inputFrameQueuedPackets with hz | hpos
  · rw [rollbackInputFrame_of_zero hz]
    exact ⟨ht, hz⟩
  have hact : q.inputFrameActive = true := by
    by_contra hf
    have := ht.idle (Bool.eq_false_of_not_eq_true hf)
    omega
  obtain ⟨hring, hcount, hlist, hready, -, -, -, -, -, hbase⟩ :=
    iterate_rollbackEntry q.inputFrameQueuedPackets
      { q with rolledBackPacketCount := UInt16.ofNat q.inputFrameQueuedPackets } ht.ring
      (show q.inputFrameQueuedPackets ≤ q.ring.count by omega)
  unfold PacedSend.rollbackInputFrame
  rw [if_neg (by omega)]
  dsimp only
  generalize rollbackEntry^[q.inputFrameQueuedPackets] _ = r at hring hcount hlist hready hbase ⊢
  change r.ring.count = q.ring.count - q.inputFrameQueuedPackets at hcount
  change r.readyCount = q.readyCount at hready
  have htimes : r.times = q.times.take (q.ring.count - q.inputFrameQueuedPackets) := by
    unfold times
    rw [hlist, map_take]
    rfl
  have hleft : SpacedBy q.inputFrameBaseNextReleaseUs r.times := by
    rw [htimes]
    exact ht.base hact
  have hback : ({ r with
      nextReleaseUs := q.inputFrameBaseNextReleaseUs
      inputFrameQueuedPackets := 0
      inputFrameIsKeyframe := false } : PacedSend Pkt).Timed := by
    refine ⟨hring, ?_, fun _ => rfl, fun _ => rfl, hleft, fun _ => ?_⟩
    · change r.readyCount + 0 ≤ r.ring.count
      omega
    · change SpacedBy r.inputFrameBaseNextReleaseUs (r.times.take (r.ring.count - 0))
      rw [hbase, Nat.sub_zero, ← length_times, take_length]
      exact hleft
  split_ifs with h0
  · refine ⟨hback.rewind h0 0, ?_⟩
    have hin := (shrunk_rewindEmpty hback.ring).input
    exact congrArg (·.2.1) hin
  · exact ⟨hback, rfl⟩

/-- A new frame notes the time at which the queue is over; within a frame the note stays. -/
lemma Timed.enterInputFrame (ht : q.Timed) (timestamp : UInt32) (keyframe dropOnDelay : Bool)
    (maxDelayUs nowUs : ℤ) :
    (q.enterInputFrame timestamp keyframe dropOnDelay maxDelayUs nowUs).Timed := by
  have hbegin : ∀ r : PacedSend Pkt, r.Timed →
      (r.beginInputFrame timestamp keyframe dropOnDelay maxDelayUs nowUs).Timed := by
    intro r hr
    refine ⟨hr.ring, hr.ready_le, fun _ => rfl, fun _ => rfl, hr.spaced, fun _ => ?_⟩
    change SpacedBy r.nextReleaseUs (r.times.take (r.ring.count - 0))
    rw [Nat.sub_zero, ← length_times, take_length]
    exact hr.spaced
  unfold PacedSend.enterInputFrame
  split_ifs with hnew hr
  · obtain ⟨hback, hq⟩ := ht.rollbackInputFrame
    exact hbegin _ ⟨hback.ring, hback.le, fun _ => hq, fun _ => hq, hback.spaced, nofun⟩
  · exact hbegin q ht
  · exact ht

lemma Timed.admitFramePacket (ht : q.Timed) (timestamp : UInt32)
    (marker keyframe dropOnDelay : Bool) (maxDelayUs nowUs : ℤ) :
    (q.admitFramePacket timestamp marker keyframe dropOnDelay maxDelayUs nowUs).1.Timed := by
  have hin := ht.enterInputFrame timestamp keyframe dropOnDelay maxDelayUs nowUs
  unfold PacedSend.admitFramePacket
  dsimp only
  generalize q.enterInputFrame timestamp keyframe dropOnDelay maxDelayUs nowUs = r at hin ⊢
  -- the marker closes the frame only where it is dropped, and then it has no packets
  have hmark : ({ r with inputFrameIsKeyframe := true } : PacedSend Pkt).Timed := { hin with }
  have hclose : ∀ s : PacedSend Pkt, s.Timed → s.dropInputFrame = true →
      s.clearInputFrame.Timed := fun s hs hd =>
    ⟨hs.ring, hs.le, fun _ => hs.dropped hd, fun _ => hs.dropped hd, hs.spaced, nofun⟩
  split_ifs with hk hm hm
  · exact hclose _ hmark (by simpa using (Bool.and_eq_true_iff.1 hm).2)
  · exact hmark
  · exact hclose _ hin (by simpa using (Bool.and_eq_true_iff.1 hm).2)
  · exact hin

/-! ### The trim and the drain -/

lemma spacedBy_listWalk (b : ℤ) (l : List (Entry Pkt)) :
    let r := Ring.listWalk rebaseEntry b l
    SpacedBy r.1 (r.2.map fun e => (e.releaseAtUs, e.spanUs)) ∧
      ∀ e ∈ r.2.head?, e.releaseAtUs = b := by
  induction l generalizing b with
  | nil => exact ⟨spacedBy_nil _, nofun⟩
  | cons e l ih =>
    obtain ⟨⟨hchain, hlast⟩, hhead⟩ := ih (b + e.spanUs)
    rw [Ring.listWalk]
    refine ⟨⟨?_, ?_⟩, ?_⟩
    · rw [map_cons, isChain_cons]
      refine ⟨fun a ha => ?_, hchain⟩
      rw [List.head?_map, Option.mem_map] at ha
      obtain ⟨x, hx, rfl⟩ := ha
      exact (hhead x hx).ge
    · intro a ha
      cases l with
      | nil =>
        cases ha
        exact le_rfl
      | cons e' l => exact hlast a (by rwa [map_cons, Ring.listWalk, map_cons,
          List.getLast?_cons_cons] at ha)
    · intro x hx
      cases hx
      rfl

/-- A trim lays out the whole queue anew, whatever the times were. -/
lemma spaced_rebaseBacklog (h : q.ring.WF capacity) (nowUs : ℤ) :
    SpacedBy (q.rebaseBacklog nowUs).nextReleaseUs (q.rebaseBacklog nowUs).times := by
  by_cases h0 : q.ring.count = 0
  · rw [times_eq_nil (show (q.rebaseBacklog nowUs).ring.count = 0 from h0)]
    exact spacedBy_nil _
  obtain ⟨hlist, hnext⟩ := Ring.toList_walk h rebaseEntry nowUs
  change SpacedBy (if q.ring.count = 0 then 0 else (q.ring.walk capacity rebaseEntry nowUs).1)
    (((q.ring.walk capacity rebaseEntry nowUs).2.toList capacity).map _)
  rw [if_neg h0, hlist, hnext]
  exact (spacedBy_listWalk nowUs _).1

/-- Entries that leave at the head while no frame is open leave the rest as it is, if its times
are in order. -/
lemma Timed.shrunk {n : ℕ} (ht : q.Timed) (h : Shrunk q r n) (ha : q.inputFrameActive = false)
    (hs : SpacedBy r.nextReleaseUs r.times) : r.Timed := by
  have hin := h.input
  simp only [inputView, Prod.mk.injEq] at hin
  obtain ⟨-, hq, hact, -⟩ := hin
  have hz : r.inputFrameQueuedPackets = 0 := hq.trans (ht.idle ha)
  refine ⟨h.ring, ?_, fun _ => hz, fun _ => hz, hs, fun hf => ?_⟩
  · rw [hz]
    exact h.ready_le ht.ready_le
  · exact absurd (ha.symm.trans (hact.symm.trans hf)) (by decide)

lemma Timed.trimFrames (maxDelayUs nowUs : ℤ) (n : ℕ) (q : PacedSend Pkt) (report : DropReport)
    (ha : q.inputFrameActive = false) (ht : q.Timed) :
    (trimFrames maxDelayUs nowUs n q report).1.Timed := by
  induction n generalizing q report with
  | zero => exact ht
  | succ n ih =>
    unfold PacedSend.trimFrames
    split_ifs with hgo
    · obtain ⟨m, hm, -⟩ := trimFrame_spec ht.ring ht.ready_le (ready_of_trims hgo) nowUs report
      refine ih _ _ ((congrArg (·.2.2.1) hm.input).trans ha) (ht.shrunk hm.toShrunk ha ?_)
      obtain ⟨d, hd, -⟩ := dropHeadFrame_spec q.readyCount q 0 ht.ring ht.ready_le
      unfold trimFrame
      refine spaced_rebaseBacklog ?_ nowUs
      split_ifs
      · exact hd.ring
      · exact hd.ring
    · exact ht

lemma Timed.boundBacklog (ht : q.Timed) (maxDelayUs nowUs : ℤ) (report : DropReport) :
    (q.boundBacklog maxDelayUs nowUs report).1.Timed := by
  unfold PacedSend.boundBacklog
  split_ifs with hg
  · exact ht
  · exact (ht.trimFrames maxDelayUs nowUs q.readyCount q report
      (by simpa using (not_or.1 hg).2)).rewindEmpty

lemma Timed.popEntry (hr : 0 < q.readyCount) (ht : q.Timed) : q.popEntry.Timed := by
  have hle := ht.le
  have hc : 0 < q.ring.count := by omega
  have htimes : q.popEntry.times = q.times.tail := by
    unfold times
    rw [toList_eq_cons ht.ring hc]
    rfl
  refine ⟨ht.ring.pop hc, ?_, ht.idle, ht.dropped, ?_, fun ha => ?_⟩
  · change q.readyCount - 1 + q.inputFrameQueuedPackets ≤ q.ring.count - 1
    omega
  · rw [htimes]
    exact ht.spaced.tail
  · change SpacedBy q.inputFrameBaseNextReleaseUs
      (q.popEntry.times.take (q.ring.count - 1 - q.inputFrameQueuedPackets))
    rw [htimes, Nat.sub_right_comm, ← drop_one, ← drop_take, drop_one]
    exact (ht.base ha).tail

def Fate.Released (nowUs : ℤ) : Fate Pkt → Prop
  | .sent e => e.releaseAtUs ≤ nowUs
  | .stale _ => True

lemma drainLoop_times (valid : Entry Pkt → Bool) (accepts : ℕ → Bool) (nowUs : ℤ) (n : ℕ)
    (q : PacedSend Pkt) (ht : q.Timed) :
    let r := drainLoop valid accepts nowUs n q
    r.1.Timed ∧ ∀ f ∈ r.2, f.Released nowUs := by
  induction n generalizing q with
  | zero => exact ⟨ht, forall_mem_nil _⟩
  | succ n ih =>
    unfold drainLoop
    by_cases h0 : q.readyCount = 0
    · rw [if_pos h0]
      exact ⟨ht, forall_mem_nil _⟩
    obtain ⟨hrest, hsent⟩ := ih q.popEntry (ht.popEntry (Nat.pos_of_ne_zero h0))
    rw [if_neg h0]
    split_ifs with hv hwait
    · exact ⟨hrest, forall_mem_cons.2 ⟨trivial, hsent⟩⟩
    · exact ⟨ht, forall_mem_nil _⟩
    · refine ⟨hrest, forall_mem_cons.2 ⟨?_, hsent⟩⟩
      simp only [gt_iff_lt, Bool.or_eq_true, decide_eq_true_eq, not_or, not_lt] at hwait
      exact hwait.1

lemma drain_times (ht : q.Timed) (valid : Entry Pkt → Bool) (accepts : ℕ → Bool) (nowUs : ℤ)
    (remaining : ℕ) :
    let r := q.drain valid accepts nowUs remaining
    r.1.Timed ∧ ∀ f ∈ r.2, f.Released nowUs := by
  unfold PacedSend.drain
  split_ifs with hg
  · exact ⟨ht, nofun⟩
  obtain ⟨hrest, hsent⟩ := drainLoop_times valid accepts nowUs remaining q ht
  refine ⟨?_, hsent⟩
  dsimp only
  split_ifs with h0
  · exact hrest.rewind h0 0
  · exact hrest

/-! ### Runs -/

inductive Op (Pkt : Type*)
  | call (c : Call Pkt)
  | enqueue (data : Pkt) (len dst pacingBps : ℕ) (metadata : Metadata) (allocated : Bool)
      (nowUs : ℤ)

def step [Inhabited Pkt] (q : PacedSend Pkt) : Op Pkt → PacedSend Pkt
  | .call c => q.call c
  | .enqueue data len dst pacingBps metadata allocated nowUs =>
    (q.enqueue data len dst pacingBps metadata allocated nowUs).getD q

/-- How the egress uses a queue: no packet is queued for a frame that is dropped, and a frame is
refused only once nothing of it is queued. -/
def Disciplined (q : PacedSend Pkt) : Op Pkt → Prop
  | .call .rejectInputFrame => q.inputFrameQueuedPackets = 0
  | .call _ => True
  | .enqueue .. => q.dropInputFrame = false

instance (q : PacedSend Pkt) (o) : Decidable (Disciplined q o) := by
  unfold Disciplined
  split <;> infer_instance

lemma Timed.step [Inhabited Pkt] (ht : q.Timed) {o : Op Pkt} (hd : Disciplined q o) :
    (q.step o).Timed := by
  cases o with
  | call c =>
    cases c with
    | admitFramePacket timestamp marker keyframe dropOnDelay maxDelayUs nowUs =>
      exact ht.admitFramePacket timestamp marker keyframe dropOnDelay maxDelayUs nowUs
    | finishInputFrame => exact ht.finishInputFrame
    | rollbackInputFrame => exact ht.rollbackInputFrame.1
    | rejectInputFrame =>
      change q.rejectInputFrame.Timed
      unfold rejectInputFrame
      split_ifs
      · exact { ht with dropped := fun _ => hd }
      · exact ht
    | boundBacklog maxDelayUs nowUs => exact ht.boundBacklog maxDelayUs nowUs _
    | drain valid accepts nowUs remaining =>
      exact (drain_times ht valid accepts nowUs remaining).1
    | destroy => exact timed_init
  | enqueue data len dst pacingBps metadata allocated nowUs =>
    unfold PacedSend.step
    dsimp only
    cases hr : q.enqueue data len dst pacingBps metadata allocated nowUs with
    | none => exact ht
    | some r => exact ht.enqueue hd hr

/-- **Release times never overlap**: in a run of disciplined operations, with any rates and any
clock, an entry is released after the one before it is off the wire, the last one is off the wire
at `nextReleaseUs`, and a drain sends nothing before its time. -/
theorem paced_release_spaced [Inhabited Pkt] {ops : List (Op Pkt)}
    (h : Runs.Along step Disciplined init ops) :
    let q := Runs.run step init ops
    q.toList.IsChain (fun a b => a.releaseAtUs + a.spanUs ≤ b.releaseAtUs) ∧
      (∀ e ∈ q.toList.getLast?, e.releaseAtUs + e.spanUs ≤ q.nextReleaseUs) ∧
      ∀ valid accepts nowUs remaining e,
        .sent e ∈ (q.drain valid accepts nowUs remaining).2 → e.releaseAtUs ≤ nowUs := by
  intro q
  have ht : q.Timed :=
    Runs.run_inv_along step (I := Timed) (fun q o hq hd => hq.step hd) timed_init h
  refine ⟨(isChain_map _).1 ht.spaced.1, fun e he => ht.spaced.2 (e.releaseAtUs, e.spanUs) ?_,
    fun valid accepts nowUs remaining e he =>
      (drain_times ht valid accepts nowUs remaining).2 (.sent e) he⟩
  rw [times, List.getLast?_map, he]
  rfl

/-- Two frames of a packet each are queued, one behind the other. -/
theorem paced_release_spaced_two : let ops : List (Op ℕ) :=
      [.call (.admitFramePacket 1 true false false 0 0), .enqueue 7 1000 1 0 default true 0,
        .call .finishInputFrame, .call (.admitFramePacket 2 true false false 0 0),
        .enqueue 8 1000 1 0 default true 0]
    ∀ e ∈ (Runs.run step init ops).toList.getLast?, e.releaseAtUs + e.spanUs ≤ 8000 := by
  intro ops
  have hd : Runs.Along step Disciplined init ops := by decide +kernel
  exact (paced_release_spaced hd).2.1

/-- A packet queued for a refused frame counts as one of it, and the rollback of the frame takes
the packet behind it: what is left is on the wire until after `nextReleaseUs`. -/
theorem refused_packet_overlaps :
    let q := Runs.run step (init : PacedSend ℕ)
      [.call (.admitFramePacket 1 false false true 0 0), .enqueue 7 1000 1 0 default true 0,
        .call (.admitFramePacket 1 true false true 0 0), .enqueue 8 1000 1 0 default true 0,
        .call .rollbackInputFrame]
    ∃ e ∈ q.toList.getLast?, ¬ e.releaseAtUs + e.spanUs ≤ q.nextReleaseUs := by
  refine ⟨⟨0, 4000, 1, 1000, default, 7⟩, ?_, ?_⟩ <;> decide +kernel

end PacedSend

end MezonSfu.Paced
