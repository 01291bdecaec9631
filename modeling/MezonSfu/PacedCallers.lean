import MezonSfu.PacedCalls

/-!
Any number of paced queues, with what their callers keep to.

A caller presents a packet to a queue before it puts it in, and refuses a frame right after
rolling it back. Whether it may do so is kept as history.
-/

namespace MezonSfu.Paced

open Function

/-- The queues `κ`. `admitted k` says that the last packet presented to `k` was admitted and its
frame is still open, and `rolledBack k` that the last call on `k` was a rollback. -/
structure Callers (κ Pkt : Type*) where
  queues : κ → PacedSend Pkt
  admitted : κ → Bool
  rolledBack : κ → Bool

variable {κ Pkt : Type*}

/-- Whether the frame of the last packet presented is open and takes packets. -/
def Call.leavesAdmitted (q : PacedSend Pkt) (before : Bool) : Call Pkt → Bool
  | .admitFramePacket timestamp marker keyframe dropOnDelay maxDelayUs nowUs =>
    (q.admitFramePacket timestamp marker keyframe dropOnDelay maxDelayUs nowUs).2
  | .finishInputFrame => false
  | .rejectInputFrame => false
  | .destroy => false
  | _ => before

def Call.isRollback : Call Pkt → Bool
  | .rollbackInputFrame => true
  | _ => false

namespace Callers

variable [Inhabited Pkt] [DecidableEq κ]

def init : Callers κ Pkt := ⟨fun _ => .init, fun _ => false, fun _ => false⟩

section

variable (s : Callers κ Pkt)

def call (k : κ) (c : Call Pkt) : Callers κ Pkt where
  queues := update s.queues k ((s.queues k).call c)
  admitted := update s.admitted k (c.leavesAdmitted (s.queues k) (s.admitted k))
  rolledBack := update s.rolledBack k c.isRollback

omit [Inhabited Pkt] in
/-- The queue `k` after a packet was put in. -/
def put (k : κ) (q : PacedSend Pkt) : Callers κ Pkt :=
  { s with
    queues := update s.queues k q
    rolledBack := update s.rolledBack k false }

/-- A packet is put in after its queue has admitted it, and not as the end of its frame. -/
def MayEnqueue (k : κ) (metadata : Metadata) : Prop :=
  s.admitted k = true ∧ metadata.frameEnd = false

/-- A frame is refused right after it was rolled back. -/
def MayCall (k : κ) : Call Pkt → Prop
  | .rejectInputFrame => s.rolledBack k = true
  | _ => True

end

instance (s : Callers κ Pkt) (k : κ) (metadata : Metadata) : Decidable (s.MayEnqueue k metadata) :=
  inferInstanceAs (Decidable (s.admitted k = true ∧ metadata.frameEnd = false))

instance (s : Callers κ Pkt) (k : κ) (c) : Decidable (s.MayCall k c) := by
  cases c <;> (unfold MayCall; infer_instance)

/-- The counts of every queue fit together, and the history says of it what it should. -/
structure Ordered (s : Callers κ Pkt) : Prop where
  wf : ∀ k, (s.queues k).WF
  framed : ∀ k, (s.queues k).Framed
  admitted : ∀ k, s.admitted k = true →
    (s.queues k).inputFrameActive = true ∧ (s.queues k).dropInputFrame = false
  rolledBack : ∀ k, s.rolledBack k = true → (s.queues k).inputFrameQueuedPackets = 0

omit [DecidableEq κ] in
lemma ordered_init : (init : Callers κ Pkt).Ordered where
  wf _ := PacedSend.wf_init
  framed _ := PacedSend.framed_init
  admitted _ h := absurd h Bool.false_ne_true
  rolledBack _ h := absurd h Bool.false_ne_true

variable {q : PacedSend Pkt} {j k : κ} {c : Call Pkt} {s : Callers κ Pkt} {dst len pacingBps : ℕ}
  {data : Pkt} {metadata : Metadata} {nowUs : ℤ} {allocated : Bool}

omit [Inhabited Pkt] in
lemma shrunk_open {r : PacedSend Pkt} {n : ℕ} (h : PacedSend.Shrunk q r n)
    (ho : q.inputFrameActive ∧ q.dropInputFrame = false) :
    r.inputFrameActive ∧ r.dropInputFrame = false := by
  have ha : r.inputFrameActive = q.inputFrameActive := congrArg (·.2.2.1) h.input
  have hd : r.dropInputFrame = q.dropInputFrame := congrArg (·.2.2.2.1) h.input
  rw [ha, hd]
  exact ho

/-- A call after which the history says that packets are taken leaves the frame open. -/
lemma leavesAdmitted_open (h : q.WF) {before : Bool}
    (hb : before → q.inputFrameActive ∧ q.dropInputFrame = false) (c : Call Pkt)
    (hc : c.leavesAdmitted q before) :
    (q.call c).inputFrameActive ∧ (q.call c).dropInputFrame = false := by
  cases c with
  | admitFramePacket timestamp marker keyframe dropOnDelay maxDelayUs nowUs =>
    exact (PacedSend.admitFramePacket_spec h timestamp marker keyframe dropOnDelay maxDelayUs
      nowUs).2.2 hc
  | finishInputFrame => cases hc
  | rollbackInputFrame =>
    obtain ⟨-, -, -, -, hact, hdrop, -⟩ := PacedSend.rollbackInputFrame_spec h
    change q.rollbackInputFrame.inputFrameActive ∧ q.rollbackInputFrame.dropInputFrame = false
    rw [hact, hdrop]
    exact hb hc
  | rejectInputFrame => cases hc
  | boundBacklog maxDelayUs nowUs =>
    obtain ⟨m, hm, -⟩ := PacedSend.boundBacklog_spec h maxDelayUs nowUs DropReport.init
    exact shrunk_open hm.toShrunk (hb hc)
  | drain valid accepts nowUs remaining =>
    obtain ⟨m, hm, -⟩ := PacedSend.drain_spec h valid accepts nowUs remaining
    exact shrunk_open hm.toShrunk (hb hc)
  | destroy => cases hc

omit [DecidableEq κ] in
lemma Ordered.callSpec (h : s.Ordered) (hk : s.MayCall k c) : (s.queues k).CallSpec c := by
  refine PacedSend.callSpec (h.wf k) (h.framed k) c ?_
  rintro rfl
  exact h.rolledBack k hk

omit [Inhabited Pkt] in
lemma Ordered.set (h : s.Ordered) (k : κ) {a b : Bool} (hwf : q.WF) (hframed : q.Framed)
    (hopen : a → q.inputFrameActive ∧ q.dropInputFrame = false)
    (hback : b → q.inputFrameQueuedPackets = 0) :
    Ordered ⟨update s.queues k q, update s.admitted k a, update s.rolledBack k b⟩ := by
  refine ⟨(forall_update_iff _ fun _ => PacedSend.WF).2 ⟨hwf, fun j _ => h.wf j⟩,
    (forall_update_iff _ fun _ => PacedSend.Framed).2 ⟨hframed, fun j _ => h.framed j⟩,
    fun j hj => ?_, fun j hj => ?_⟩ <;> dsimp only at hj ⊢ <;> rcases eq_or_ne j k with rfl | hne
  · rw [update_self] at hj ⊢
    exact hopen hj
  · rw [update_of_ne hne] at hj ⊢
    exact h.admitted j hj
  · rw [update_self] at hj ⊢
    exact hback hj
  · rw [update_of_ne hne] at hj ⊢
    exact h.rolledBack j hj

/-- **A call** keeps the queues in order. -/
theorem Ordered.call (h : s.Ordered) (hk : s.MayCall k c) : (s.call k c).Ordered := by
  have hspec := h.callSpec hk
  refine h.set k hspec.wf hspec.framed (leavesAdmitted_open (h.wf k) (h.admitted k) c) ?_
  intro hc
  cases c with
  | rollbackInputFrame => exact (PacedSend.rollbackInputFrame_spec (h.wf k)).2.2.2.1
  | _ => cases hc

omit [Inhabited Pkt] in
/-- **Putting a packet in** keeps the queues in order. -/
theorem Ordered.put (h : s.Ordered) (hk : s.MayEnqueue k metadata)
    (hq : (s.queues k).enqueue data len dst pacingBps metadata allocated nowUs = some q) :
    (s.put k q).Ordered := by
  obtain ⟨hadm, hend⟩ := hk
  obtain ⟨hact, hdrop⟩ := h.admitted k hadm
  obtain ⟨e, -, -, -, -, hr, -⟩ := PacedSend.enqueue_cases (h.wf k) hq
  have hopen : s.admitted k = true → q.inputFrameActive = true ∧ q.dropInputFrame = false := by
    rw [hr]
    exact fun _ => ⟨hact, hdrop⟩
  have hset := h.set k ((h.wf k).enqueue hact hdrop hq) ((h.framed k).enqueue (h.wf k) hend hq)
    hopen (b := false) nofun
  rwa [update_eq_self] at hset

lemma Ordered.left (h : s.Ordered) (hk : s.MayCall j c) (k : κ) :
    PacedSend.Left (s.queues k) ((s.call j c).queues k) := by
  change PacedSend.Left (s.queues k) (update s.queues j _ k)
  rcases eq_or_ne k j with rfl | hne
  · rw [update_self]
    exact (h.callSpec hk).left
  · rw [update_of_ne hne]
    exact .same rfl

omit [Inhabited Pkt] in
lemma Ordered.entered (h : s.Ordered)
    (hq : (s.queues j).enqueue data len dst pacingBps metadata allocated nowUs = some q) (k : κ) :
    (∃ e : Entry Pkt, e.data = data ∧ e.metadata = metadata ∧
        ((s.put j q).queues k).contents = (s.queues k).contents ++ [e.fixed]) ∨
      ((s.put j q).queues k).contents = (s.queues k).contents := by
  obtain ⟨e, hdata, hmeta, -, -, -, -, hlist⟩ := PacedSend.enqueue_cases (h.wf j) hq
  change (∃ e : Entry Pkt, e.data = data ∧ e.metadata = metadata ∧
      (update s.queues j q k).contents = _) ∨
    (update s.queues j q k).contents = _
  rcases eq_or_ne k j with rfl | hne
  · rw [update_self]
    refine .inl ⟨e, hdata, hmeta, ?_⟩
    unfold PacedSend.contents
    rw [hlist, List.map_append, List.map_singleton]
  · rw [update_of_ne hne]
    exact .inr rfl

end Callers

end MezonSfu.Paced
