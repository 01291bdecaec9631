import MezonSfu.MarkedFrames
import MezonSfu.PacedQueue

/-!
What leaves a paced send queue at its head: the entries the backlog trim drops and the ones a
drain pops.

Both come from the front of the ready entries. The trim takes whole frames: as long as the last
ready entry ends a frame, so does the last one it drops.
-/

namespace MezonSfu.Paced

open Frames List

variable {Pkt : Type*}

namespace PacedSend

/-- The entries `dropHeadFrame` cancels. -/
def headFrame : ℕ → PacedSend Pkt → List (Entry Pkt)
  | 0, _ => []
  | n + 1, q =>
    if q.readyCount = 0 then []
    else if q.headEntry.metadata.frameEnd then [q.headEntry]
    else q.headEntry :: headFrame n q.advance

/-- The entries `trimFrames` cancels. -/
def headFrames (maxDelayUs nowUs : ℤ) : ℕ → PacedSend Pkt → List (Entry Pkt)
  | 0, _ => []
  | n + 1, q =>
    if q.trims maxDelayUs nowUs then
      headFrame q.readyCount q ++
        headFrames maxDelayUs nowUs n (q.trimFrame nowUs DropReport.init).1
    else []

/-- The entries `boundBacklog` cancels. -/
def trimmedEntries (q : PacedSend Pkt) (maxDelayUs nowUs : ℤ) : List (Entry Pkt) :=
  if maxDelayUs ≤ 0 ∨ q.inputFrameActive = true then []
  else headFrames maxDelayUs nowUs q.readyCount q

def items (q : PacedSend Pkt) : List Pkt := q.toList.map Entry.data

def ends (q : PacedSend Pkt) : List Bool := q.toList.map (·.metadata.frameEnd)

/-- The frames that are ready are counted, and no unfinished frame has an end. -/
structure Framed (q : PacedSend Pkt) : Prop where
  count : q.readyFrameCount = (q.ends.take q.readyCount).count true
  rest : true ∉ q.ends.drop q.readyCount

/-- The last ready entry ends a frame. -/
def Closed (q : PacedSend Pkt) : Prop := AtEnd id (q.ends.take q.readyCount)

/-- `r` is `q` without its first `n` entries, with the marks of the others as they were. -/
structure Fewer (q r : PacedSend Pkt) (n : ℕ) : Prop extends Shrunk q r n where
  ends : r.ends = q.ends.drop n

def Fate.entry : Fate Pkt → Entry Pkt
  | .sent e => e
  | .stale e => e

variable {q r s : PacedSend Pkt} {n m : ℕ}

lemma items_eq_contents : q.items = q.contents.map Entry.data := by
  unfold items contents
  rw [map_map]
  rfl

@[simp] lemma length_ends : q.ends.length = q.ring.count := by simp [ends]

lemma Shrunk.items (h : Shrunk q r n) : r.items = q.items.drop n := by
  rw [items_eq_contents, items_eq_contents, h.contents, map_drop]

lemma Shrunk.ready_le (h : Shrunk q r n) (hc : q.readyCount ≤ q.ring.count) :
    r.readyCount ≤ r.ring.count := by
  have h1 := h.count
  have h2 := h.ready
  omega

lemma WF.ready_le (h : q.WF) : q.readyCount ≤ q.ring.count := by
  have := h.count
  omega

lemma framed_init [Inhabited Pkt] : (init : PacedSend Pkt).Framed := ⟨rfl, not_mem_nil⟩

/-! ### Fewer entries -/

lemma ends_eq_nil (h : q.ring.count = 0) : q.ends = [] :=
  eq_nil_of_length_eq_zero (by rw [length_ends, h])

lemma ends_eq_cons (h : q.ring.WF capacity) (hc : 0 < q.ring.count) :
    q.ends = q.headEntry.metadata.frameEnd :: q.advance.ends := by
  unfold ends
  rw [toList_eq_cons h hc]
  rfl

lemma items_eq_cons (h : q.ring.WF capacity) (hc : 0 < q.ring.count) :
    q.items = q.headEntry.data :: q.advance.items := by
  unfold items
  rw [toList_eq_cons h hc]
  rfl

lemma Fewer.refl (h : q.ring.WF capacity) : Fewer q q 0 := ⟨Shrunk.refl h, rfl⟩

lemma Fewer.trans (h : Fewer q r n) (h' : Fewer r s m) : Fewer q s (n + m) :=
  ⟨h.toShrunk.trans h'.toShrunk, by rw [h'.ends, h.ends, drop_drop]⟩

lemma fewer_advance (h : q.ring.WF capacity) (hr : 0 < q.readyCount)
    (hc : q.readyCount ≤ q.ring.count) : Fewer q q.advance 1 := by
  refine ⟨shrunk_advance h hr hc, ?_⟩
  rw [ends_eq_cons h (hr.trans_le hc)]
  rfl

lemma Fewer.of_ring_eq (h : Fewer q r n) (hr : s.ring = r.ring)
    (hc : s.readyCount = r.readyCount) (hi : s.inputView = r.inputView) : Fewer q s n := by
  refine ⟨h.toShrunk.of_ring_eq hr hc hi, ?_⟩
  rw [← h.ends]
  unfold PacedSend.ends toList
  rw [hr]

lemma fewer_rebaseBacklog (h : q.ring.WF capacity) (nowUs : ℤ) :
    Fewer q (q.rebaseBacklog nowUs) 0 :=
  ⟨shrunk_rebaseBacklog h nowUs, map_rebaseBacklog h (fun _ _ => rfl) nowUs⟩

lemma fewer_rewindEmpty (h : q.ring.WF capacity) : Fewer q q.rewindEmpty 0 := by
  refine ⟨shrunk_rewindEmpty h, ?_⟩
  unfold rewindEmpty
  split_ifs with h0
  · rw [ends_eq_nil h0]
    exact ends_eq_nil h0
  · rfl

lemma Fewer.framed (h : Fewer q r n) (hq : q.Framed)
    (hc : r.readyFrameCount = q.readyFrameCount - (q.ends.take n).count true) : r.Framed := by
  have hsplit : q.readyCount = n + (q.readyCount - n) := by
    have := h.le
    omega
  constructor
  · rw [hc, hq.count, h.ready, h.ends, hsplit, take_add, count_append]
    simp
  · rw [h.ends, h.ready, drop_drop, ← hsplit]
    exact hq.rest

lemma Fewer.closed (h : Fewer q r n) (hq : q.Closed) : r.Closed := by
  unfold Closed at hq ⊢
  have hle := h.le
  rw [show q.readyCount = n + (q.readyCount - n) by omega, take_add] at hq
  rw [h.ends, h.ready]
  exact hq.of_append

lemma Framed.rewindEmpty (h : q.Framed) : q.rewindEmpty.Framed := by
  unfold PacedSend.rewindEmpty
  split_ifs with h0
  · constructor
    · rw [ends_eq_nil (by exact h0), take_nil]
      rfl
    · rw [ends_eq_nil (by exact h0), drop_nil]
      exact not_mem_nil
  · exact h

/-! ### The trim -/

/-- If the head does not end its frame, an entry behind it does. -/
lemma Closed.advance_pos (hq : q.Closed) (h : q.ring.WF capacity) (hr : 0 < q.readyCount)
    (hc : q.readyCount ≤ q.ring.count) (hend : ¬ q.headEntry.metadata.frameEnd) :
    0 < q.advance.readyCount := by
  refine Nat.pos_of_ne_zero fun hz => ?_
  have hready : q.advance.readyCount = q.readyCount - 1 := rfl
  unfold Closed at hq
  rw [ends_eq_cons h (hr.trans_le hc), show q.readyCount = 1 by omega] at hq
  exact hend (hq _ rfl)

/-- The frame at the head: the end that is seen is the only one dropped, and it is the last entry
dropped; it is seen if there is one. -/
lemma dropHeadFrame_spec (n : ℕ) (q : PacedSend Pkt) (publisher : ℕ)
    (h : q.ring.WF capacity) (hc : q.readyCount ≤ q.ring.count) :
    let r := dropHeadFrame n q publisher
    ∃ m, Fewer q r.1 m ∧ (headFrame n q).map Entry.data = q.items.take m ∧
      r.1.readyFrameCount = q.readyFrameCount ∧ (q.ends.take m).count true = r.2.1.toNat ∧
      (r.2.1 → (q.ends.take m).getLast? = some true) ∧
      (q.Closed → 0 < q.readyCount → q.readyCount ≤ n → r.2.1) := by
  induction n generalizing q publisher with
  | zero => exact ⟨0, Fewer.refl h, rfl, rfl, rfl, nofun, fun _ _ _ => by omega⟩
  | succ n ih =>
    unfold dropHeadFrame headFrame
    split_ifs with h0 hend
    · exact ⟨0, Fewer.refl h, rfl, rfl, rfl, nofun, fun _ _ _ => by omega⟩
    · have hpos := Nat.pos_of_ne_zero h0
      refine ⟨1, fewer_advance h hpos hc, ?_, rfl, ?_, ?_, fun _ _ _ => rfl⟩ <;>
        simp [items_eq_cons, ends_eq_cons, h, hpos.trans_le hc, hend]
    · have hpos := Nat.pos_of_ne_zero h0
      have hadv := fewer_advance h hpos hc
      have hcons := ends_eq_cons h (hpos.trans_le hc)
      rw [Bool.eq_false_of_not_eq_true hend] at hcons
      obtain ⟨m, hm, hitems, hframes, hcount, hlast, hseen⟩ :=
        ih q.advance q.headEntry.metadata.publisherPeerId hadv.ring (hadv.ready_le hc)
      have htake : q.ends.take (1 + m) = false :: q.advance.ends.take m := by
        rw [hcons, Nat.add_comm, take_succ_cons]
      refine ⟨1 + m, hadv.trans hm, ?_, hframes, ?_, fun hs => ?_, fun hclosed _ hle => ?_⟩
      · rw [items_eq_cons h (hpos.trans_le hc), Nat.add_comm, take_succ_cons, ← hitems]
        rfl
      · rw [htake, ← hcount]
        rfl
      · rw [htake, List.getLast?_cons, hlast hs]
        rfl
      · have hready : q.advance.readyCount = q.readyCount - 1 := hadv.ready
        exact hseen (hadv.closed hclosed) (hclosed.advance_pos h hpos hc hend) (by omega)

lemma trimFrame_spec (h : q.ring.WF capacity) (hc : q.readyCount ≤ q.ring.count)
    (hr : q.readyCount ≠ 0) (nowUs : ℤ) (report : DropReport) :
    ∃ m, Fewer q (q.trimFrame nowUs report).1 m ∧
      (headFrame q.readyCount q).map Entry.data = q.items.take m ∧
      (q.Framed → (q.trimFrame nowUs report).1.Framed) ∧
      (q.Closed → AtEnd id (q.ends.take m)) := by
  obtain ⟨m, hm, hitems, hframes, hcount, hlast, hseen⟩ := dropHeadFrame_spec q.readyCount q 0 h hc
  have hend : q.Closed → AtEnd id (q.ends.take m) := by
    intro hclosed b hb
    rw [hlast (hseen hclosed (Nat.pos_of_ne_zero hr) le_rfl)] at hb
    exact (Option.some.inj hb).symm
  unfold trimFrame
  dsimp only
  generalize dropHeadFrame q.readyCount q 0 = d at *
  split_ifs with hs
  · have hd := hm.of_ring_eq (s := { d.1 with readyFrameCount := d.1.readyFrameCount - 1 })
      rfl rfl rfl
    have hfew := hd.trans (fewer_rebaseBacklog hd.ring nowUs)
    refine ⟨m, hfew, hitems, fun hq => hfew.framed hq ?_, hend⟩
    rw [Nat.add_zero, hcount, hs, ← hframes]
    rfl
  · have hfew := hm.trans (fewer_rebaseBacklog hm.ring nowUs)
    refine ⟨m, hfew, hitems, fun hq => hfew.framed hq ?_, hend⟩
    rw [Nat.add_zero, hcount, Bool.eq_false_of_not_eq_true hs, ← hframes]
    rfl

lemma ready_of_trims {maxDelayUs nowUs : ℤ} (h : q.trims maxDelayUs nowUs) : q.readyCount ≠ 0 := by
  unfold trims at h
  simp only [Bool.and_eq_true, decide_eq_true_eq] at h
  exact h.1.1

lemma trimFrames_spec (maxDelayUs nowUs : ℤ) (n : ℕ) (q : PacedSend Pkt) (report : DropReport)
    (h : q.ring.WF capacity) (hc : q.readyCount ≤ q.ring.count) :
    let r := trimFrames maxDelayUs nowUs n q report
    ∃ m, Fewer q r.1 m ∧ (headFrames maxDelayUs nowUs n q).map Entry.data = q.items.take m ∧
      (q.Framed → r.1.Framed) ∧
      (q.Closed → AtEnd id (q.ends.take m)) ∧ (q.trims maxDelayUs nowUs = false → m = 0) := by
  induction n generalizing q report with
  | zero => exact ⟨0, Fewer.refl h, rfl, id, fun _ => nofun, fun _ => rfl⟩
  | succ n ih =>
    unfold trimFrames headFrames
    split_ifs with ht
    · obtain ⟨m, hm, hitems, hframed, hend⟩ :=
        trimFrame_spec h hc (ready_of_trims ht) nowUs report
      obtain ⟨m', hm', hitems', hframed', hend', -⟩ :=
        ih (q.trimFrame nowUs report).1 (q.trimFrame nowUs report).2 hm.ring (hm.ready_le hc)
      refine ⟨m + m', hm.trans hm', ?_, hframed' ∘ hframed, fun hq => ?_,
        fun hf => absurd ht (by rw [hf]; decide)⟩
      · -- the report is written, never read, so the entries do not depend on it
        change (headFrame q.readyCount q ++
          headFrames maxDelayUs nowUs n (q.trimFrame nowUs report).1).map Entry.data = _
        rw [map_append, hitems, hitems', hm.items, take_add]
      · rw [take_add, ← hm.ends]
        exact (hend' (hm.closed hq)).append (hend hq)
    · exact ⟨0, Fewer.refl h, rfl, id, fun _ => nofun, fun _ => rfl⟩

/-- **The trim**: what leaves is the front of the queue, and it ends with a frame. -/
theorem boundBacklog_spec (h : q.WF) (maxDelayUs nowUs : ℤ) (report : DropReport) :
    let r := q.boundBacklog maxDelayUs nowUs report
    ∃ m, Fewer q r.1 m ∧ (q.trimmedEntries maxDelayUs nowUs).map Entry.data = q.items.take m ∧
      (q.Framed → r.1.Framed) ∧
      (q.Closed → AtEnd id (q.ends.take m)) ∧ (q.trims maxDelayUs nowUs = false → m = 0) := by
  unfold boundBacklog trimmedEntries
  split_ifs with hg
  · exact ⟨0, Fewer.refl h.ring, rfl, id, fun _ => nofun, fun _ => rfl⟩
  · obtain ⟨m, hm, hitems, hframed, hrest⟩ :=
      trimFrames_spec maxDelayUs nowUs q.readyCount q report h.ring h.ready_le
    exact ⟨m, hm.trans (fewer_rewindEmpty hm.ring), hitems, fun hf => (hframed hf).rewindEmpty,
      hrest⟩

lemma drainLoop_spec (valid : Entry Pkt → Bool) (accepts : ℕ → Bool) (nowUs : ℤ) (n : ℕ)
    (q : PacedSend Pkt) (h : q.ring.WF capacity) (hc : q.readyCount ≤ q.ring.count) :
    let r := drainLoop valid accepts nowUs n q
    ∃ m, Fewer q r.1 m ∧ r.2.map Fate.entry = q.toList.take m ∧ r.1.readyFrameCount =
        q.readyFrameCount - (q.ends.take m).count true := by
  induction n generalizing q with
  | zero => exact ⟨0, Fewer.refl h, rfl, rfl⟩
  | succ n ih =>
    unfold drainLoop
    by_cases h0 : q.readyCount = 0
    · rw [if_pos h0]
      exact ⟨0, Fewer.refl h, rfl, rfl⟩
    have hpos := Nat.pos_of_ne_zero h0
    have hpop : Fewer q q.popEntry 1 := (fewer_advance h hpos hc).of_ring_eq rfl rfl rfl
    obtain ⟨m, hm, hfates, hframes⟩ := ih q.popEntry hpop.ring (hpop.ready_le hc)
    have htake : q.toList.take (1 + m) = q.headEntry :: q.popEntry.toList.take m := by
      rw [toList_eq_cons h (hpos.trans_le hc), Nat.add_comm]
      rfl
    have hcount : (drainLoop valid accepts nowUs n q.popEntry).1.readyFrameCount =
        q.readyFrameCount - (q.ends.take (1 + m)).count true := by
      rw [hframes, ends_eq_cons h (hpos.trans_le hc), Nat.add_comm 1 m, take_succ_cons]
      change (if q.headEntry.metadata.frameEnd then _ else _) - (q.advance.ends.take m).count _ = _
      cases q.headEntry.metadata.frameEnd with
      | true =>
        simp only [if_true, count_cons_self]
        omega
      | false => simp
    rw [if_neg h0]
    split_ifs
    · exact ⟨1 + m, hpop.trans hm, by rw [htake, ← hfates]; rfl, hcount⟩
    · exact ⟨0, Fewer.refl h, rfl, rfl⟩
    · exact ⟨1 + m, hpop.trans hm, by rw [htake, ← hfates]; rfl, hcount⟩

/-- **The drain** shortens the queue at the front, and says of every entry what became of it. -/
theorem drain_spec (h : q.WF) (valid : Entry Pkt → Bool) (accepts : ℕ → Bool) (nowUs : ℤ)
    (remaining : ℕ) :
    let r := q.drain valid accepts nowUs remaining
    ∃ m, Fewer q r.1 m ∧ r.2.map Fate.entry = q.toList.take m ∧ (q.Framed → r.1.Framed) := by
  unfold drain
  split_ifs with hg
  · exact ⟨0, Fewer.refl h.ring, rfl, id⟩
  obtain ⟨m, hm, hfates, hframes⟩ :=
    drainLoop_spec valid accepts nowUs remaining q h.ring h.ready_le
  refine ⟨m, ?_, hfates, fun hf => ?_⟩ <;> dsimp only <;> split_ifs
  · exact (hm.trans (fewer_rewindEmpty hm.ring)).of_ring_eq rfl rfl rfl
  · exact hm
  · have hr := (hm.framed hf hframes).rewindEmpty
    exact ⟨hr.count, hr.rest⟩
  · exact hm.framed hf hframes

/-- What a drain does with an entry is decided by whether it is valid. -/
lemma drainLoop_valid (valid : Entry Pkt → Bool) (accepts : ℕ → Bool) (nowUs : ℤ) (n : ℕ)
    (q : PacedSend Pkt) {e : Entry Pkt} :
    let r := drainLoop valid accepts nowUs n q
    (.sent e ∈ r.2 → valid e) ∧ (.stale e ∈ r.2 → valid e = false) := by
  induction n generalizing q with
  | zero => exact ⟨nofun, nofun⟩
  | succ n ih =>
    unfold drainLoop
    split_ifs with h0 hv hwait
    · exact ⟨nofun, nofun⟩
    · refine ⟨fun h => ?_, fun h => ?_⟩
      · rcases mem_cons.1 h with h | h
        · cases h
        · exact (ih q.popEntry).1 h
      · rcases mem_cons.1 h with h | h
        · cases h
          simpa using hv
        · exact (ih q.popEntry).2 h
    · exact ⟨nofun, nofun⟩
    · refine ⟨fun h => ?_, fun h => ?_⟩
      · rcases mem_cons.1 h with h | h
        · cases h
          simpa using hv
        · exact (ih q.popEntry).1 h
      · rcases mem_cons.1 h with h | h
        · cases h
        · exact (ih q.popEntry).2 h

lemma drain_valid (q : PacedSend Pkt) (valid : Entry Pkt → Bool) (accepts : ℕ → Bool) (nowUs : ℤ)
    (remaining : ℕ) {e : Entry Pkt} :
    let r := q.drain valid accepts nowUs remaining
    (.sent e ∈ r.2 → valid e) ∧ (.stale e ∈ r.2 → valid e = false) := by
  unfold PacedSend.drain
  split_ifs with hg
  · exact ⟨nofun, nofun⟩
  · exact drainLoop_valid valid accepts nowUs remaining q

end PacedSend

end MezonSfu.Paced
