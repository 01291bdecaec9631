import MezonSfu.PacedHead

/-!
The calls on a paced send queue, the entries that leave it in each, and the count of its ready
frames.

An entry leaves from the head, sent or cancelled, or from the tail, cancelled together with its
whole unfinished frame. What the pacer is told is read off the entries that leave.
-/

namespace MezonSfu.Paced

open List

variable {Pkt : Type*}

/-- How an entry leaves: its reservation is committed when the packet was sent, and cancelled
otherwise. -/
inductive Exit (Pkt : Type*)
  | committed (e : Entry Pkt)
  | cancelled (e : Entry Pkt)

def Exit.data : Exit Pkt → Pkt
  | .committed e => e.data
  | .cancelled e => e.data

/-- A call on a queue, other than `enqueue`. -/
inductive Call (Pkt : Type*)
  | admitFramePacket (timestamp : UInt32) (marker keyframe dropOnDelay : Bool)
      (maxDelayUs nowUs : ℤ)
  | finishInputFrame
  | rollbackInputFrame
  | rejectInputFrame
  | boundBacklog (maxDelayUs nowUs : ℤ)
  | drain (valid : Entry Pkt → Bool) (accepts : ℕ → Bool) (nowUs : ℤ) (remaining : ℕ)
  | destroy

namespace PacedSend

/-- What a drain did with an entry tells the pacer what to do with the reservation. -/
def Fate.exit : Fate Pkt → Exit Pkt
  | .sent e => .committed e
  | .stale e => .cancelled e

/-- The entries that `n` passes of the rollback loop cancel, from the tail on. -/
def popBack : ℕ → PacedSend Pkt → List (Entry Pkt)
  | 0, _ => []
  | n + 1, q => q.ring.cells q.lastIndex :: popBack n q.rollbackEntry

/-- The entries `rollbackInputFrame` cancels. -/
def rolledBackEntries (q : PacedSend Pkt) : List (Entry Pkt) :=
  if q.inputFrameQueuedPackets = 0 ∨ q.ring.count < q.inputFrameQueuedPackets then []
  else popBack q.inputFrameQueuedPackets q

def call [Inhabited Pkt] (q : PacedSend Pkt) : Call Pkt → PacedSend Pkt
  | .admitFramePacket timestamp marker keyframe dropOnDelay maxDelayUs nowUs =>
    (q.admitFramePacket timestamp marker keyframe dropOnDelay maxDelayUs nowUs).1
  | .finishInputFrame => q.finishInputFrame
  | .rollbackInputFrame => q.rollbackInputFrame
  | .rejectInputFrame => q.rejectInputFrame
  | .boundBacklog maxDelayUs nowUs => (q.boundBacklog maxDelayUs nowUs DropReport.init).1
  | .drain valid accepts nowUs remaining => (q.drain valid accepts nowUs remaining).1
  | .destroy => init

/-- The entries that leave in a call, in the order in which they do. -/
def exits (q : PacedSend Pkt) : Call Pkt → List (Exit Pkt)
  | .admitFramePacket timestamp _ _ _ _ _ =>
    if q.rollsBack timestamp then q.rolledBackEntries.map .cancelled else []
  | .rollbackInputFrame => q.rolledBackEntries.map .cancelled
  | .boundBacklog maxDelayUs nowUs => (q.trimmedEntries maxDelayUs nowUs).map .cancelled
  | .drain valid accepts nowUs remaining =>
    (q.drain valid accepts nowUs remaining).2.map Fate.exit
  | .destroy => q.toList.map .cancelled
  | _ => []

variable {q r : PacedSend Pkt} {n m : ℕ}

/-! ### Entering and leaving at the tail -/

section

variable {data : Pkt} {len dst pacingBps : ℕ} {metadata : Metadata} {allocated : Bool} {nowUs : ℤ}

lemma enqueue_lists (h : q.WF) (he : metadata.frameEnd = false)
    (hr : q.enqueue data len dst pacingBps metadata allocated nowUs = some r) :
    r.items = q.items ++ [data] ∧ r.ends = q.ends ++ [false] := by
  obtain ⟨e, rfl, rfl, -, -, -, -, hlist⟩ := enqueue_cases h hr
  simp [items, ends, hlist, he]

lemma Framed.enqueue (h : q.WF) (hf : q.Framed) (he : metadata.frameEnd = false)
    (hr : q.enqueue data len dst pacingBps metadata allocated nowUs = some r) : r.Framed := by
  have hends := (enqueue_lists h he hr).2
  obtain ⟨e, -, -, -, -, rfl, -, -⟩ := enqueue_cases h hr
  have hle : q.readyCount ≤ q.ends.length := by
    rw [length_ends]
    exact h.ready_le
  constructor
  · rw [hends, take_append_of_le_length hle]
    exact hf.count
  · rw [hends, drop_append_of_le_length hle]
    simpa using hf.rest

end

lemma ends_modifyLast (h : q.ring.WF capacity) (hc : 0 < q.ring.count) :
    ((q.ring.modifyLast capacity Entry.markEnd).toList capacity).map (·.metadata.frameEnd) =
      q.ends.dropLast ++ [true] := by
  rw [Ring.toList_modifyLast h hc, map_append, map_singleton]
  unfold ends toList
  rw [← map_dropLast]
  rfl

lemma Framed.finishInputFrame (h : q.WF) (hf : q.Framed) : q.finishInputFrame.Framed := by
  unfold PacedSend.finishInputFrame
  split_ifs with ha h0
  · have hcount := h.count
    have hends := ends_modifyLast h.ring (show 0 < q.ring.count by omega)
    have hlen : q.ends.dropLast.length + 1 = q.ring.count := by
      rw [length_dropLast, length_ends]
      omega
    -- all entries are ready now, and the one marked is the only new end
    have hold : q.ends.dropLast.count true = q.readyFrameCount := by
      have hsplit : q.ends.dropLast =
          q.ends.take q.readyCount ++ (q.ends.drop q.readyCount).dropLast := by
        rw [← dropLast_append_of_ne_nil, take_append_drop]
        intro hnil
        have := congrArg List.length hnil
        rw [length_drop, length_ends] at this
        simp only [length_nil] at this
        omega
      have hnone : ((q.ends.drop q.readyCount).dropLast).count true = 0 :=
        count_eq_zero.2 fun hmem => hf.rest (dropLast_subset _ hmem)
      rw [hsplit, count_append, hnone, Nat.add_zero]
      exact hf.count.symm
    constructor
    · change q.readyFrameCount + 1 = ((((q.ring.modifyLast capacity Entry.markEnd).toList
        capacity).map (·.metadata.frameEnd)).take
          (q.readyCount + q.inputFrameQueuedPackets)).count true
      rw [hends, take_of_length_le
        (by simp only [length_append, length_singleton]; omega), count_append, hold]
      rfl
    · change true ∉ ((((q.ring.modifyLast capacity Entry.markEnd).toList
        capacity).map (·.metadata.frameEnd)).drop (q.readyCount + q.inputFrameQueuedPackets))
      rw [hends, drop_of_length_le (by simp only [length_append, length_singleton]; omega)]
      exact not_mem_nil
  · have hq : q.inputFrameQueuedPackets = 0 := by
      by_contra hne
      exact h0 hne
    constructor
    · rw [hq]
      exact hf.count
    · rw [hq]
      exact hf.rest
  · exact hf

lemma popBack_eq (n : ℕ) (q : PacedSend Pkt) (h : q.ring.WF capacity) (hn : n ≤ q.ring.count) :
    popBack n q = (q.toList.drop (q.ring.count - n)).reverse := by
  induction n generalizing q with
  | zero =>
    rw [Nat.sub_zero, ← length_toList, drop_length]
    rfl
  | succ n ih =>
    have hcount : q.rollbackEntry.ring.count = q.ring.count - 1 := rfl
    unfold popBack
    rw [ih q.rollbackEntry (h.unpush (by omega)) (by omega),
      toList_rollbackEntry h (by omega), hcount,
      show q.ring.count - (n + 1) = q.ring.count - 1 - n by omega,
      drop_append_of_le_length (by rw [length_toList, hcount]; omega), reverse_append]
    rfl

/-- **The rollback** cancels the unfinished frame, and nothing else. -/
lemma rolledBackEntries_eq (h : q.WF) :
    q.rolledBackEntries = (q.toList.drop q.readyCount).reverse := by
  have hcount := h.count
  unfold rolledBackEntries
  split_ifs with hg
  · have h0 : q.toList.length ≤ q.readyCount := by
      rw [length_toList]
      omega
    rw [drop_of_length_le h0]
    rfl
  · rw [popBack_eq _ _ h.ring (by omega),
      show q.ring.count - q.inputFrameQueuedPackets = q.readyCount by omega]

lemma Framed.rollbackInputFrame (h : q.WF) (hf : q.Framed) : q.rollbackInputFrame.Framed := by
  obtain ⟨-, hlist, hready, -⟩ := rollbackInputFrame_spec h
  have hends : q.rollbackInputFrame.ends = q.ends.take q.readyCount := by
    unfold ends
    rw [hlist, map_take]
  have hcount : q.rollbackInputFrame.readyFrameCount = q.readyFrameCount ∨
      (q.rollbackInputFrame.readyFrameCount = 0 ∧ q.rollbackInputFrame.ring.count = 0) := by
    unfold PacedSend.rollbackInputFrame
    split_ifs with hg
    · exact .inl rfl
    obtain ⟨-, -, -, -, -, -, -, -, hframes, -⟩ :=
      iterate_rollbackEntry q.inputFrameQueuedPackets
        { q with rolledBackPacketCount := UInt16.ofNat q.inputFrameQueuedPackets } h.ring
        (show q.inputFrameQueuedPackets ≤ q.ring.count by omega)
    dsimp only
    split_ifs with h0
    · right
      unfold PacedSend.rewindEmpty
      rw [if_pos h0]
      exact ⟨rfl, h0⟩
    · exact .inl hframes
  constructor
  · rw [hends, hready, take_take, Nat.min_self]
    rcases hcount with hcount | ⟨hcount, hempty⟩
    · rw [hcount]
      exact hf.count
    have hnil : q.ends.take q.readyCount = [] := by
      rw [← hends]
      exact eq_nil_of_length_eq_zero (by rw [length_ends, hempty])
    rw [hcount, hnil]
    rfl
  · rw [hends, hready, drop_of_length_le (by simp)]
    exact not_mem_nil

lemma Framed.settled (h : q.WF) (hf : q.Framed) (timestamp : UInt32) :
    (q.settled timestamp).Framed := by
  unfold PacedSend.settled
  split_ifs
  · exact hf.rollbackInputFrame h
  · exact hf

lemma admitFramePacket_readyFrameCount (timestamp : UInt32) (marker keyframe dropOnDelay : Bool)
    (maxDelayUs nowUs : ℤ) :
    (q.admitFramePacket timestamp marker keyframe dropOnDelay maxDelayUs
      nowUs).1.readyFrameCount = (q.settled timestamp).readyFrameCount := by
  have henter : (q.enterInputFrame timestamp keyframe dropOnDelay maxDelayUs
      nowUs).readyFrameCount = (q.settled timestamp).readyFrameCount := by
    unfold enterInputFrame settled rollsBack
    cases ha : q.inputFrameActive <;> cases ht : q.inputTimestamp != timestamp <;> rfl
  unfold admitFramePacket
  dsimp only
  split_ifs <;> exact henter

lemma Framed.of_sameQueue (h : q.Framed) (hs : SameQueue q r)
    (hc : r.readyFrameCount = q.readyFrameCount) : r.Framed := by
  have hends : r.ends = q.ends := by
    unfold ends
    rw [hs.toList]
  constructor
  · rw [hends, hs.ready, hc]
    exact h.count
  · rw [hends, hs.ready]
    exact h.rest

/-! ### One call -/

/-- Entries leave from the head, the whole unfinished frame from the tail, or all when the queue
is destroyed and starts anew. -/
inductive Left [Inhabited Pkt] (q r : PacedSend Pkt) : Prop
  | head (n : ℕ) (hn : n ≤ q.readyCount) (h : r.contents = q.contents.drop n)
  | tail (h : r.contents = q.contents.take q.readyCount)
  | destroyed (h : r = init)

structure CallSpec [Inhabited Pkt] (q : PacedSend Pkt) (c : Call Pkt) : Prop where
  wf : (q.call c).WF
  framed : (q.call c).Framed
  left : Left q (q.call c)
  balance : ((q.call c).items ++ (q.exits c).map Exit.data).Perm q.items

lemma Left.same [Inhabited Pkt] (h : r.contents = q.contents) : Left q r :=
  .head 0 (Nat.zero_le _) h

lemma Left.subset [Inhabited Pkt] (h : Left q r) : r.contents ⊆ q.contents := by
  cases h with
  | head n _ h =>
    rw [h]
    exact drop_subset n _
  | tail h =>
    rw [h]
    exact take_subset _ _
  | destroyed h =>
    rw [h, contents_init]
    exact nil_subset _

lemma map_data_cancelled (l : List (Entry Pkt)) :
    (l.map Exit.cancelled).map Exit.data = l.map Entry.data := by
  rw [map_map]
  rfl

lemma map_data_exit (l : List (Fate Pkt)) :
    (l.map Fate.exit).map Exit.data = (l.map Fate.entry).map Entry.data := by
  rw [map_map, map_map]
  refine map_congr_left fun f _ => ?_
  cases f <;> rfl

lemma perm_of_shrunk (h : Shrunk q r n) {out : List Pkt} (ho : out = q.items.take n) :
    (r.items ++ out).Perm q.items := by
  rw [h.items, ho]
  exact perm_append_comm.trans (List.Perm.of_eq (take_append_drop n q.items))

lemma perm_of_rollback (h : q.WF) (hl : r.toList = q.toList.take q.readyCount) :
    (r.items ++ (q.rolledBackEntries.map Exit.cancelled).map Exit.data).Perm q.items := by
  rw [map_data_cancelled, rolledBackEntries_eq h]
  unfold items
  rw [hl, ← map_append]
  refine List.Perm.map _ ?_
  refine ((reverse_perm _).append_left _).trans ?_
  rw [take_append_drop]

lemma callSpec_admitFramePacket [Inhabited Pkt] (h : q.WF) (hf : q.Framed) (timestamp : UInt32)
    (marker keyframe dropOnDelay : Bool) (maxDelayUs nowUs : ℤ) :
    q.CallSpec (.admitFramePacket timestamp marker keyframe dropOnDelay maxDelayUs nowUs) := by
  obtain ⟨hwf, hsame, -⟩ :=
    admitFramePacket_spec h timestamp marker keyframe dropOnDelay maxDelayUs nowUs
  have hframed := (hf.settled h timestamp).of_sameQueue hsame
    (admitFramePacket_readyFrameCount timestamp marker keyframe dropOnDelay maxDelayUs nowUs)
  cases hr : q.rollsBack timestamp with
  | true =>
    have hset : q.settled timestamp = q.rollbackInputFrame := if_pos hr
    have hlist : (q.admitFramePacket timestamp marker keyframe dropOnDelay maxDelayUs
        nowUs).1.toList = q.toList.take q.readyCount := by
      rw [hsame.toList, hset]
      exact (rollbackInputFrame_spec h).2.1
    refine ⟨hwf, hframed, .tail ?_, ?_⟩
    · unfold contents call
      rw [hlist, map_take]
    · unfold exits
      dsimp only
      rw [if_pos hr]
      exact perm_of_rollback h hlist
  | false =>
    have hset : q.settled timestamp = q := if_neg (by rw [hr]; decide)
    rw [hset] at hsame
    refine ⟨hwf, hframed, .same hsame.contents, ?_⟩
    unfold exits
    dsimp only
    rw [if_neg (by rw [hr]; decide), map_nil, append_nil]
    unfold items call
    rw [hsame.toList]

/-- **One call** keeps the counts, and what leaves does so at the right end. A frame is refused
only once it has no entries left. -/
theorem callSpec [Inhabited Pkt] (h : q.WF) (hf : q.Framed) (c : Call Pkt)
    (hr : c = .rejectInputFrame → q.inputFrameQueuedPackets = 0) : q.CallSpec c := by
  cases c with
  | admitFramePacket timestamp marker keyframe dropOnDelay maxDelayUs nowUs =>
    exact callSpec_admitFramePacket h hf timestamp marker keyframe dropOnDelay maxDelayUs nowUs
  | finishInputFrame =>
    have hcont : q.finishInputFrame.WF ∧ q.finishInputFrame.contents = q.contents := by
      cases hact : q.inputFrameActive with
      | true =>
        obtain ⟨hwf, hcont, -⟩ := finishInputFrame_spec h hact
        exact ⟨hwf, hcont⟩
      | false =>
        have hsame : q.finishInputFrame = q := if_neg (by rw [hact]; decide)
        rw [hsame]
        exact ⟨h, rfl⟩
    refine ⟨hcont.1, hf.finishInputFrame h, .same hcont.2, ?_⟩
    refine List.Perm.of_eq ?_
    change q.finishInputFrame.items ++ [] = q.items
    rw [append_nil, items_eq_contents, hcont.2, ← items_eq_contents]
  | rollbackInputFrame =>
    obtain ⟨hwf, hlist, -⟩ := rollbackInputFrame_spec h
    refine ⟨hwf, hf.rollbackInputFrame h, .tail ?_, ?_⟩
    · unfold contents call
      rw [hlist, map_take]
    · exact perm_of_rollback h hlist
  | rejectInputFrame =>
    have h0 := hr rfl
    obtain ⟨hwf, hframed, hlist⟩ : q.rejectInputFrame.WF ∧ q.rejectInputFrame.Framed ∧
        q.rejectInputFrame.toList = q.toList := by
      unfold rejectInputFrame
      split_ifs
      · exact ⟨⟨h.ring, h.count, h.idle, fun _ => h0⟩, ⟨hf.count, hf.rest⟩, rfl⟩
      · exact ⟨h, hf, rfl⟩
    refine ⟨hwf, hframed, .same ?_, List.Perm.of_eq ?_⟩
    · unfold contents call
      rw [hlist]
    · change q.rejectInputFrame.items ++ [] = q.items
      unfold items
      rw [append_nil, hlist]
  | boundBacklog maxDelayUs nowUs =>
    obtain ⟨m, hm, hitems, hframed, -⟩ := boundBacklog_spec h maxDelayUs nowUs DropReport.init
    refine ⟨hm.wf h, hframed hf, .head m hm.le hm.contents, ?_⟩
    unfold exits
    rw [map_data_cancelled]
    exact perm_of_shrunk hm.toShrunk hitems
  | drain valid accepts nowUs remaining =>
    obtain ⟨m, hm, hfates, hframed⟩ := drain_spec h valid accepts nowUs remaining
    refine ⟨hm.wf h, hframed hf, .head m hm.le hm.contents, ?_⟩
    unfold exits
    rw [map_data_exit, hfates, map_take]
    exact perm_of_shrunk hm.toShrunk rfl
  | destroy =>
    refine ⟨wf_init, framed_init, .destroyed rfl, ?_⟩
    unfold exits
    rw [map_data_cancelled]
    exact List.Perm.refl _

end PacedSend

end MezonSfu.Paced
