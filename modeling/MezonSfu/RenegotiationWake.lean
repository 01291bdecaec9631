import MezonSfu.Renegotiation

/-!
When the loop is idle, what still waits for an offer has a wake or a timer coming for it.

The queue entry of a session serves both for a pending offer and for the watch on a sent one. A
schedule call that finds the session in the queue does not wake the loop. So no wake-up is lost as
long as a trigger on a queued session finds it waiting for an offer already, and does not move the
due time forward.
-/

namespace MezonSfu.Renegotiation

open Negotiation RenegotiationQueue List

variable {ι : Type*} [DecidableEq ι]

/-! ### The invariant -/

/-- A needed offer can be made: the session is established and nothing is outstanding. -/
structure PeerGood (p : Peer) : Prop where
  needed : p.neg.negotiationNeeded = true → p.established = true ∧
    p.neg.offerOutstanding = false ∧ p.neg.renegotiationPending = true ∧
    p.neg.answeredRevision < p.neg.desiredOfferRevision
  answered_le : p.neg.answeredRevision ≤ p.neg.offeredRevision

/-- The queued flags say which sessions are in the ring, once each. -/
structure QueueGood (v : Server ι) : Prop where
  sound : v.queue.Sound
  fallback : v.queue.fallback = []
  nodup : v.queue.entries.Nodup
  queued_iff : ∀ s, (v.peers s).neg.renegotiationQueued = true ↔ s ∈ v.queue.entries

section

variable (v : Server ι)

/-- What the loop knows about the session in its hand. -/
def LoopGood : Prop :=
  match v.loop with
  | .sending s attemptRevision _ _ _ => (v.peers s).established = true ∧
      (v.peers s).neg.offerOutstanding = true ∧
      (v.peers s).neg.answeredRevision < attemptRevision ∧
      attemptRevision ≤ (v.peers s).neg.desiredOfferRevision
  | .watching s due _ _ => (v.peers s).neg.offerOutstanding = true ∧ due ≠ 0
  | .requeueing _ due _ _ => due ≠ 0
  | _ => True

def Waiting (s : ι) : Prop :=
  (v.peers s).acceptsWork = true ∧ (v.peers s).neg.negotiationNeeded = true

/-- How many entries a flush has still to pop, and the earliest due time it has met. -/
def Loop.progress : Loop ι → Option (ℕ × ℕ)
  | .idle => none
  | .starting => none
  | .popping remaining earliest => some (remaining, earliest)
  | .holding _ remaining earliest => some (remaining, earliest)
  | .requeueing _ _ remaining earliest => some (remaining, earliest)
  | .sending _ _ _ remaining earliest => some (remaining, earliest)
  | .watching _ _ remaining earliest => some (remaining, earliest)

/-- The loop comes to the queued session in time by itself: the timer is early enough, or a
flush will still pop it or has counted it in. -/
def Timed (s : ι) : Prop :=
  (v.loop = .idle ∧ ∃ t, v.timer = some t ∧ t ≤ (v.peers s).neg.negotiationDueMs) ∨
  v.loop = .starting ∨
  ∃ remaining earliest, v.loop.progress = some (remaining, earliest) ∧
    (s ∈ v.queue.entries.take remaining ∨
      (earliest ≠ 0 ∧ earliest ≤ (v.peers s).neg.negotiationDueMs))

/-- The flush holds the session, or is about to put it back for a time early enough. -/
def Held (s : ι) : Prop :=
  (∃ remaining earliest, v.loop = .holding s remaining earliest) ∨
  ∃ due remaining earliest, v.loop = .requeueing s due remaining earliest ∧
    due ≤ (v.peers s).neg.negotiationDueMs

/-- The session the loop is about to put back into the queue for an offer or a watch. -/
def Loop.returning : Loop ι → Option ι
  | .requeueing s _ _ _ => some s
  | _ => none

/-- Somebody comes for a waiting session: the flush that holds it, the wake or the timer if it is
in the queue, and otherwise a schedule call that will enqueue it. -/
def Covered (s : ι) : Prop :=
  Held v s ∨
  (s ∈ v.queue.entries ∧ (v.wake = true ∨ ⟨s, .wake⟩ ∈ v.calls ∨ Timed v s)) ∨
  (s ∉ v.queue.entries ∧ v.loop.returning ≠ some s ∧ ⟨s, .enqueue⟩ ∈ v.calls)

end

structure Good (v : Server ι) : Prop where
  peers : ∀ s, PeerGood (v.peers s)
  queue : QueueGood v
  loop : LoopGood v
  covered : ∀ s, Waiting v s → Covered v s

variable {earliest offset remaining : ℕ} {p : Peer} {s x y : ι} {l : List ι} {v v' : Server ι}
  {calls : List (Call ι)}

section Cover

/-- The session a flush still has to put back. -/
def Loop.inHand : Loop ι → Option ι
  | .holding s _ _ => some s
  | .requeueing s _ _ _ => some s
  | _ => none

section

omit [DecidableEq ι]

lemma Held.inHand (h : Held v s) : v.loop.inHand = some s := by
  rcases h with ⟨_, _, hl⟩ | ⟨_, _, _, hl, -⟩ <;> rw [hl] <;> rfl

lemma not_held (h : v.loop.inHand = none) : ¬ Held v s := by
  intro hh
  rw [hh.inHand] at h
  cases h

lemma Held.eq (h : Held v x) (hs : v.loop.inHand = some s) : x = s :=
  Option.some.inj (h.inHand.symm.trans hs)

lemma Timed.of_progress (h : Timed v s) (hpr : v.loop.progress = some (remaining, earliest)) :
    s ∈ v.queue.entries.take remaining ∨
      (earliest ≠ 0 ∧ earliest ≤ (v.peers s).neg.negotiationDueMs) := by
  rcases h with ⟨hl, -⟩ | hl | ⟨r, e, hpr', h⟩
  · rw [hl] at hpr
    cases hpr
  · rw [hl] at hpr
    cases hpr
  · rw [hpr] at hpr'
    cases hpr'
    exact h

lemma Covered.imp (h : Covered v s) (hcalls : ∀ stage, ⟨s, stage⟩ ∈ v.calls → ⟨s, stage⟩ ∈ v'.calls)
    (hmem : s ∈ v'.queue.entries ↔ s ∈ v.queue.entries)
    (hret : v'.loop.returning = some s → v.loop.returning = some s) (hwake : v.wake → v'.wake)
    (htimed : Timed v s → Timed v' s) (hheld : Held v s → Covered v' s) : Covered v' s := by
  rcases h with hc | ⟨hm, hc | hc | hc⟩ | ⟨hm, hr, hc⟩
  · exact hheld hc
  · exact .inr (.inl ⟨hmem.2 hm, .inl (hwake hc)⟩)
  · exact .inr (.inl ⟨hmem.2 hm, .inr (.inl (hcalls _ hc))⟩)
  · exact .inr (.inl ⟨hmem.2 hm, .inr (.inr (htimed hc))⟩)
  · exact .inr (.inr ⟨fun hm' => hm (hmem.1 hm'), fun hr' => hr (hret hr'), hcalls _ hc⟩)

/-- What the loop knows of its session stays true: the offer stays outstanding, and the desired
revision is only raised. -/
structure Advances (p p' : Peer) : Prop where
  established : p.established = true → p'.established = true
  outstanding : p'.neg.offerOutstanding = p.neg.offerOutstanding
  answered : p'.neg.answeredRevision = p.neg.answeredRevision
  desired : p.neg.desiredOfferRevision ≤ p'.neg.desiredOfferRevision

lemma LoopGood.mono (h : LoopGood v) (hl : v'.loop = v.loop)
    (hpeers : ∀ x, Advances (v.peers x) (v'.peers x)) : LoopGood v' := by
  unfold LoopGood at h ⊢
  rw [hl]
  cases hloop : v.loop with
  | sending x attemptRevision now remaining earliest =>
    rw [hloop] at h
    obtain ⟨h1, h2, h3, h4⟩ := h
    have ha := hpeers x
    exact ⟨ha.established h1, ha.outstanding.trans h2, ha.answered ▸ h3, h4.trans ha.desired⟩
  | watching x due remaining earliest =>
    rw [hloop] at h
    exact ⟨(hpeers x).outstanding.trans h.1, h.2⟩
  | requeueing x due remaining earliest =>
    rw [hloop] at h
    exact h
  | _ => trivial

end

lemma Good.of_peer (h : Good v) (hpeers : ∀ x, v'.peers x = if x = s then p else v.peers x)
    (hqueue : v'.queue = v.queue) (hp : PeerGood p)
    (hq : p.neg.renegotiationQueued = (v.peers s).neg.renegotiationQueued) (hl : LoopGood v')
    (hothers : ∀ x ≠ s, Covered v x → Covered v' x)
    (hself : p.acceptsWork → p.neg.negotiationNeeded → Covered v' s) : Good v' := by
  have hsame : ∀ x ≠ s, v'.peers x = v.peers x := fun x hne => by rw [hpeers, if_neg hne]
  have hsp : v'.peers s = p := by rw [hpeers, if_pos rfl]
  refine ⟨?_, ⟨hqueue ▸ h.queue.sound, hqueue ▸ h.queue.fallback, hqueue ▸ h.queue.nodup,
    ?_⟩, hl, ?_⟩
  · intro x
    rcases eq_or_ne x s with rfl | hne
    · rw [hsp]
      exact hp
    · rw [hsame x hne]
      exact h.peers x
  · intro x
    rw [hqueue, ← h.queue.queued_iff x]
    rcases eq_or_ne x s with rfl | hne
    · rw [hsp, hq]
    · rw [hsame x hne]
  · intro x hx
    unfold Waiting at hx
    rcases eq_or_ne x s with rfl | hne
    · rw [hsp] at hx
      exact hself hx.1 hx.2
    · rw [hsame x hne] at hx
      exact hothers x hne (h.covered x hx)

omit [DecidableEq ι] in
lemma Good.of_same (h : Good v) (hpeers : v'.peers = v.peers) (hqueue : v'.queue = v.queue)
    (hl : LoopGood v') (hc : ∀ x, Covered v x → Covered v' x) : Good v' := by
  refine ⟨hpeers ▸ h.peers, ⟨hqueue ▸ h.queue.sound, hqueue ▸ h.queue.fallback,
    hqueue ▸ h.queue.nodup, hpeers ▸ hqueue ▸ h.queue.queued_iff⟩, hl, ?_⟩
  intro x hx
  unfold Waiting at hx
  rw [hpeers] at hx
  exact hc x (h.covered x hx)

end Cover

lemma peerGood_init : PeerGood .init := by
  constructor <;> simp [Peer.init, SessionNegotiation.init]

omit [DecidableEq ι] in
lemma good_init [Inhabited ι] : Good (Server.init : Server ι) := by
  refine ⟨fun _ => peerGood_init, ⟨sound_init, rfl, ?_, ?_⟩, trivial, ?_⟩
  · simp [Server.init, entries_init]
  · simp [Server.init, entries_init, Peer.init, SessionNegotiation.init]
  · intro s hs
    simp [Waiting, Server.init, Peer.init, SessionNegotiation.init] at hs

lemma PeerGood.eligible (h : PeerGood p) (hw : p.acceptsWork)
    (hn : p.neg.negotiationNeeded) : p.eligible := by
  obtain ⟨he, ho, hp, -⟩ := h.needed hn
  simp [Peer.eligible, he, ho, hp, hn, hw]

lemma PeerGood.queued (h : PeerGood p) (b : Bool) :
    PeerGood { p with neg := { p.neg with renegotiationQueued := b } } :=
  ⟨h.needed, h.answered_le⟩

/-! ### Enqueueing -/

section Enqueue

section

variable {α : Type*} {l : List α} {x y : α} {k : ℕ}

lemma exists_index_ne (hy : l[k]? = some y) (hne : x ≠ y) (hx : x ∈ l) :
    ∃ i, i ≠ k ∧ l[i]? = some x := by
  obtain ⟨i, hi⟩ := mem_iff_getElem?.1 hx
  refine ⟨i, ?_, hi⟩
  rintro rfl
  exact hne (Option.some.inj (hi.symm.trans hy))

lemma mem_eraseIdx_of_ne (hy : l[k]? = some y) (hne : x ≠ y) (hx : x ∈ l) : x ∈ l.eraseIdx k :=
  mem_eraseIdx_iff_getElem?.2 (exists_index_ne hy hne hx)

lemma mem_set_of_ne {z : α} (hy : l[k]? = some y) (hne : x ≠ y) (hx : x ∈ l) : x ∈ l.set k z := by
  obtain ⟨i, hik, hi⟩ := exists_index_ne hy hne hx
  exact mem_iff_getElem?.2 ⟨i, by rw [List.getElem?_set_ne hik.symm, hi]⟩

lemma mem_take_eraseIdx {r : ℕ} (hy : l[k]? = some y) (hne : x ≠ y) (hx : x ∈ l.take r) :
    x ∈ (l.eraseIdx k).take r := by
  rcases le_or_gt r k with hle | hlt
  · rwa [take_eraseIdx_eq_take_of_le _ _ _ hle]
  have h := mem_eraseIdx_of_ne (List.getElem?_take_of_lt hlt ▸ hy) hne hx
  rw [eraseIdx_eq_take_drop_succ, take_take, min_eq_left hlt.le, drop_take] at h
  rw [eraseIdx_eq_take_drop_succ, take_append, take_take, min_eq_right hlt.le]
  refine mem_append.2 ((mem_append.1 h).imp_right fun hm => take_subset_take_left _ ?_ hm)
  rw [length_take]
  omega

end

/-- The two servers differ in the queue and the queued flags only. -/
structure Requeued (v v' : Server ι) : Prop where
  calls : v'.calls = v.calls
  wake : v'.wake = v.wake
  timer : v'.timer = v.timer
  loop : v'.loop = v.loop
  peers : ∀ x, ∃ b, v'.peers x =
    { v.peers x with neg := { (v.peers x).neg with renegotiationQueued := b } }
  mem : ∀ x, (v.peers x).acceptsWork = true → x ∈ v.queue.entries → x ∈ v'.queue.entries
  mem_take : ∀ x r, (v.peers x).acceptsWork = true → x ∈ v.queue.entries.take r →
    x ∈ v'.queue.entries.take r

omit [DecidableEq ι] in
lemma Requeued.trans {v'' : Server ι} (h : Requeued v v') (h' : Requeued v' v'') :
    Requeued v v'' := by
  have hacc : ∀ x, (v'.peers x).acceptsWork = (v.peers x).acceptsWork := by
    intro x
    obtain ⟨b, hb⟩ := h.peers x
    rw [hb]
  refine ⟨h'.calls.trans h.calls, h'.wake.trans h.wake, h'.timer.trans h.timer,
    h'.loop.trans h.loop, ?_, ?_, ?_⟩
  · intro x
    obtain ⟨b, hb⟩ := h.peers x
    obtain ⟨c, hc⟩ := h'.peers x
    exact ⟨c, by rw [hc, hb]⟩
  · intro x hx hm
    exact h'.mem x ((hacc x).trans hx) (h.mem x hx hm)
  · intro x r hx hm
    exact h'.mem_take x r ((hacc x).trans hx) (h.mem_take x r hx hm)

lemma setQueued_peers (v : Server ι) (s x : ι) (b : Bool) :
    (v.setQueued s b).peers x = if x = s then
      { v.peers x with neg := { (v.peers x).neg with renegotiationQueued := b } }
    else v.peers x := by
  by_cases h : x = s
  · subst h
    simp [Server.setQueued, Server.setNeg, Server.setPeer]
  · simp [Server.setQueued, Server.setNeg, Server.setPeer, h]

lemma setQueued_same (v : Server ι) (s x : ι) (b : Bool) :
    ∃ c, (v.setQueued s b).peers x =
      { v.peers x with neg := { (v.peers x).neg with renegotiationQueued := c } } := by
  rw [setQueued_peers]
  split
  · exact ⟨b, rfl⟩
  · exact ⟨(v.peers x).neg.renegotiationQueued, rfl⟩

lemma reclaim_spec (h : QueueGood v) (hroom : v.queue.HasRoom v.stale) :
    Requeued v v.reclaim ∧ QueueGood v.reclaim ∧ v.reclaim.queue.ring.count < queueCap ∧
      v.reclaim.queue.entries ⊆ v.queue.entries ∧
      ∀ s, (v.peers s).acceptsWork → v.reclaim.peers s = v.peers s := by
  have hcount := reclaim_room h.sound hroom
  have hcases := reclaim_reclaimed h.sound v.stale
  generalize hres : v.queue.reclaim v.stale = result at hcases hcount
  cases hcases with
  | kept =>
    have hv : v.reclaim = v := by simp only [Server.reclaim, hres]
    rw [hv]
    refine ⟨⟨rfl, rfl, rfl, rfl, fun x => ⟨_, rfl⟩, fun _ _ hm => hm, fun _ _ _ hm => hm⟩, h,
      hcount, Subset.refl _, fun _ _ => rfl⟩
  | @removed q offset x hw hx he hf hst =>
    have hv : v.reclaim = { v with queue := q }.setQueued x false := by
      simp only [Server.reclaim, hres]
    rw [hv]
    have hentries : ({ v with queue := q }.setQueued x false).queue.entries =
        v.queue.entries.eraseIdx offset := he
    have hstale : (v.peers x).acceptsWork = false := by simpa [Server.stale] using hst
    have hne : ∀ y, (v.peers y).acceptsWork → y ≠ x := by
      rintro y hy rfl
      rw [hstale] at hy
      cases hy
    refine ⟨⟨rfl, rfl, rfl, rfl, ?_, ?_, ?_⟩, ⟨hw, hf.trans h.fallback, ?_, ?_⟩, hcount, ?_, ?_⟩
    · exact fun y => setQueued_same { v with queue := q } x y false
    · intro y hy hm
      rw [hentries]
      exact mem_eraseIdx_of_ne hx (hne y hy) hm
    · intro y r hy hm
      rw [hentries]
      exact mem_take_eraseIdx hx (hne y hy) hm
    · rw [hentries]
      exact h.nodup.sublist (eraseIdx_sublist _ _)
    · intro s
      rw [hentries, setQueued_peers]
      rcases eq_or_ne s x with rfl | hsx
      · -- the reclaimed session was there once
        have hnot : s ∉ v.queue.entries.eraseIdx offset := by
          obtain ⟨hlt, hget⟩ := List.getElem?_eq_some_iff.1 hx
          rw [← h.nodup.erase_getElem offset hlt, hget]
          exact h.nodup.not_mem_erase
        simp [hnot]
      · rw [if_neg hsx]
        have hiff : s ∈ v.queue.entries.eraseIdx offset ↔ s ∈ v.queue.entries :=
          ⟨fun hm => mem_of_mem_eraseIdx hm, mem_eraseIdx_of_ne hx hsx⟩
        rw [hiff]
        exact h.queued_iff s
    · rw [hentries]
      exact eraseIdx_subset
    · intro s hs
      rw [setQueued_peers, if_neg (hne s hs)]

lemma push_spec (h : QueueGood v) {q : Queue ι} (hnot : s ∉ v.queue.entries)
    (he : q.entries = v.queue.entries ++ [s]) (hf : q.fallback = v.queue.fallback)
    (hw : q.Sound) : Requeued v ({ v with queue := q }.setQueued s true) ∧
      QueueGood ({ v with queue := q }.setQueued s true) := by
  have hentries : ({ v with queue := q }.setQueued s true).queue.entries =
      v.queue.entries ++ [s] := he
  refine ⟨⟨rfl, rfl, rfl, rfl, ?_, ?_, ?_⟩, ⟨hw, hf.trans h.fallback, ?_, ?_⟩⟩
  · exact fun x => setQueued_same { v with queue := q } s x true
  · intro x _ hm
    rw [hentries]
    exact mem_append_left _ hm
  · intro x r _ hm
    rw [hentries, take_append]
    exact mem_append_left _ hm
  · rw [hentries, nodup_append]
    refine ⟨h.nodup, by simp, ?_⟩
    rintro a ha b hb rfl
    rw [mem_singleton.1 hb] at ha
    exact hnot ha
  · intro x
    rw [hentries, setQueued_peers, mem_append, mem_singleton]
    rcases eq_or_ne x s with rfl | hne
    · simp
    · simp only [hne, or_false]
      exact h.queued_iff x

/-- **Enqueueing with room**: exactly a session that is eligible and not queued gets an entry,
and no session that accepts work loses its place. -/
lemma enqueueOwned_spec (h : QueueGood v) (hroom : v.queue.HasRoom v.stale) (s : ι)
    (allocated : Bool) :
    let r := v.enqueueOwned s allocated
    Requeued v r.1 ∧ QueueGood r.1 ∧
      (∀ x ≠ s, x ∈ r.1.queue.entries → x ∈ v.queue.entries) ∧
      ((v.peers s).acceptsWork → (v.peers s).eligible →
        s ∈ r.1.queue.entries ∧
          (r.2 = false → (v.peers s).neg.renegotiationQueued)) := by
  obtain ⟨hreq, hgood, hcount, hsub, hsame⟩ := reclaim_spec h hroom
  by_cases hwant :
      (!(v.reclaim.peers s).neg.renegotiationQueued && (v.reclaim.peers s).eligible)
  · have hnot : s ∉ v.reclaim.queue.entries := by
      rw [← hgood.queued_iff]
      simp only [Bool.and_eq_true, Bool.not_eq_eq_eq_not, Bool.not_true] at hwant
      simp [hwant.1]
    have hins := insert_inserted hgood.sound s allocated
    generalize hres : v.reclaim.queue.insert s allocated = result at hins
    cases hins with
    | fallback _ _ _ hfull => exact absurd hcount (not_lt.2 hfull)
    | refused hfull => exact absurd hcount (not_lt.2 hfull)
    | @ring q h4 h2 h3 =>
    have heq : v.enqueueOwned s allocated =
        ({ v.reclaim with queue := q }.setQueued s true, true) := by
      unfold Server.enqueueOwned
      dsimp only
      rw [if_pos hwant, hres, if_pos rfl]
    obtain ⟨h5, h6⟩ := push_spec hgood hnot h2 h3 h4
    have hmem : s ∈ (v.enqueueOwned s allocated).1.queue.entries := by
      rw [heq]
      exact h2 ▸ mem_append_right _ (mem_singleton_self s)
    refine ⟨heq ▸ hreq.trans h5, heq ▸ h6, fun x hne hx => ?_, fun _ _ => ⟨hmem, ?_⟩⟩
    · rw [heq] at hx
      have hx' : x ∈ v.reclaim.queue.entries ++ [s] := h2 ▸ hx
      exact hsub ((mem_append.1 hx').resolve_right fun hs => hne (mem_singleton.1 hs))
    · rw [heq]
      simp
  · have heq : v.enqueueOwned s allocated = (v.reclaim, false) := by
      unfold Server.enqueueOwned
      dsimp only
      rw [if_neg hwant]
    rw [heq]
    refine ⟨hreq, hgood, fun _ _ hx => hsub hx, ?_⟩
    intro hacc helig
    have hq : (v.peers s).neg.renegotiationQueued := by
      rw [hsame s hacc, helig] at hwant
      simpa using hwant
    exact ⟨(hgood.queued_iff s).1 (by rw [hsame s hacc]; exact hq), fun _ => hq⟩

end Enqueue

section Frames

section

omit [DecidableEq ι]

variable (h : Requeued v v')

include h

lemma Requeued.neg_due (s : ι) :
    (v'.peers s).neg.negotiationDueMs = (v.peers s).neg.negotiationDueMs := by
  obtain ⟨b, hb⟩ := h.peers s
  rw [hb]

lemma Requeued.peerGood (hp : ∀ s, PeerGood (v.peers s)) (s : ι) : PeerGood (v'.peers s) := by
  obtain ⟨b, hb⟩ := h.peers s
  rw [hb]
  exact (hp s).queued b

lemma Requeued.waiting (hw : Waiting v' s) : Waiting v s := by
  obtain ⟨b, hb⟩ := h.peers s
  unfold Waiting at hw ⊢
  rw [hb] at hw
  exact hw

lemma Requeued.timed (hacc : (v.peers s).acceptsWork) (ht : Timed v s) : Timed v' s := by
  unfold Timed at ht ⊢
  rw [h.loop, h.timer, h.neg_due s]
  rcases ht with ht | ht | ⟨r, e, hpr, hm | he⟩
  · exact .inl ht
  · exact .inr (.inl ht)
  · exact .inr (.inr ⟨r, e, hpr, .inl (h.mem_take s r hacc hm)⟩)
  · exact .inr (.inr ⟨r, e, hpr, .inr he⟩)

end

end Frames

/-! ### The steps of other threads -/

section Threads

lemma setPeer_peers (v : Server ι) (s x : ι) (p : Peer) :
    (v.setPeer s p).peers x = if x = s then p else v.peers x := by
  rcases eq_or_ne x s with rfl | h
  · simp [Server.setPeer]
  · simp [Server.setPeer, h]

lemma setPeer_self {l' : Loop ι} :
    ({ v.setPeer s p with loop := l' } : Server ι).peers s = p := Function.update_self ..

lemma LoopGood.of_setPeer (h : LoopGood v) (calls : List (Call ι))
    (hp : Advances (v.peers s) p) : LoopGood { v.setPeer s p with calls := calls } := by
  refine h.mono rfl fun x => ?_
  rw [setPeer_peers]
  split
  · rename_i hx
    exact hx ▸ hp
  · exact ⟨id, rfl, rfl, le_rfl⟩

omit [DecidableEq ι] in
/-- A due time that is moved back keeps the timer early enough. -/
lemma Timed.mono (ht : Timed v s) (hl : v'.loop = v.loop) (htimer : v'.timer = v.timer)
    (hq : v'.queue = v.queue)
    (hdue : (v.peers s).neg.negotiationDueMs ≤ (v'.peers s).neg.negotiationDueMs) :
    Timed v' s := by
  unfold Timed at ht ⊢
  rw [hl, htimer, hq]
  rcases ht with ⟨hi, t, ht, hle⟩ | ht | ⟨r, e, hpr, hm | ⟨he, hle⟩⟩
  · exact .inl ⟨hi, t, ht, hle.trans hdue⟩
  · exact .inr (.inl ht)
  · exact .inr (.inr ⟨r, e, hpr, .inl hm⟩)
  · exact .inr (.inr ⟨r, e, hpr, .inr ⟨he, hle.trans hdue⟩⟩)

omit [DecidableEq ι] in
lemma Held.mono (hh : Held v s) (hl : v'.loop = v.loop)
    (hdue : (v.peers s).neg.negotiationDueMs ≤ (v'.peers s).neg.negotiationDueMs) :
    Held v' s := by
  unfold Held at hh ⊢
  rw [hl]
  rcases hh with hh | ⟨due, r, e, hh, hle⟩
  · exact .inl hh
  · exact .inr ⟨due, r, e, hh, hle.trans hdue⟩

/-- A change of one session, possibly with a new schedule call: if the session waits afterwards,
the call will enqueue it, or it waited before for a time that is not later. -/
lemma Good.of_setPeer (h : Good v) (hcalls : ∀ c ∈ v.calls, c ∈ calls) (hp : PeerGood p)
    (hq : p.neg.renegotiationQueued = (v.peers s).neg.renegotiationQueued)
    (hl : LoopGood { v.setPeer s p with calls := calls })
    (hw : p.acceptsWork → p.neg.negotiationNeeded →
      (s ∉ v.queue.entries ∧ v.loop.returning ≠ some s ∧ ⟨s, .enqueue⟩ ∈ calls) ∨
      (Waiting v s ∧ (v.peers s).neg.negotiationDueMs ≤ p.neg.negotiationDueMs)) :
    Good { v.setPeer s p with calls := calls } := by
  have hpeers : ∀ x, ({ v.setPeer s p with calls := calls } : Server ι).peers x =
      if x = s then p else v.peers x := fun x => setPeer_peers v s x p
  have hkeep : ∀ x, Covered v x → (v.peers x).neg.negotiationDueMs ≤
      (if x = s then p else v.peers x).neg.negotiationDueMs →
      Covered { v.setPeer s p with calls := calls } x := by
    intro x hc hdue
    rw [← hpeers x] at hdue
    exact hc.imp (fun _ => hcalls _) .rfl id id (fun ht => ht.mono rfl rfl rfl hdue)
      fun hh => .inl (hh.mono rfl hdue)
  refine h.of_peer hpeers rfl hp hq hl ?_ ?_
  · intro x hne hc
    exact hkeep x hc (by rw [if_neg hne])
  · intro hacc hn
    rcases hw hacc hn with hcall | ⟨hold, hdue⟩
    · exact .inr (.inr hcall)
    · exact hkeep s (h.covered s hold) (by rwa [if_pos rfl])

lemma good_establish (h : Good v) (s : ι) :
    Good (v.setPeer s { v.peers s with established := true }) := by
  have hp := h.peers s
  refine h.of_setPeer (fun _ hc => hc) ⟨?_, hp.answered_le⟩ rfl
    (h.loop.of_setPeer v.calls ⟨fun _ => rfl, rfl, rfl, le_rfl⟩) ?_
  · intro hn
    exact ⟨rfl, (hp.needed hn).2⟩
  · exact fun hacc hn => .inr ⟨⟨hacc, hn⟩, le_rfl⟩

lemma good_close (h : Good v) (s : ι) :
    Good (v.setPeer s { v.peers s with acceptsWork := false }) := by
  have hp := h.peers s
  refine h.of_setPeer (fun _ hc => hc) ⟨hp.needed, hp.answered_le⟩ rfl
    (h.loop.of_setPeer v.calls ⟨id, rfl, rfl, le_rfl⟩) ?_
  intro hacc
  cases hacc

lemma good_setFd (h : Good v) (s : ι) (fdOpen : Bool) :
    Good (v.setPeer s { v.peers s with fdOpen := fdOpen }) := by
  have hp := h.peers s
  refine h.of_setPeer (fun _ hc => hc) ⟨hp.needed, hp.answered_le⟩ rfl
    (h.loop.of_setPeer v.calls ⟨id, rfl, rfl, le_rfl⟩) ?_
  exact fun hacc hn => .inr ⟨⟨hacc, hn⟩, le_rfl⟩

lemma schedule_peerGood (h : PeerGood p) (bumpRevision : Bool) (now : ℕ)
    (hb : bumpRevision → p.neg.desiredOfferRevision + 1 < 2 ^ 64) :
    let n := schedulePeerRenegotiation p.neg p.established bumpRevision now
    PeerGood { p with neg := n } ∧ n.renegotiationQueued = p.neg.renegotiationQueued ∧
      n.offerOutstanding = p.neg.offerOutstanding ∧
      n.answeredRevision = p.neg.answeredRevision ∧
      p.neg.desiredOfferRevision ≤ n.desiredOfferRevision := by
  have hle : p.neg.desiredOfferRevision ≤ (p.neg.demand bumpRevision).desiredOfferRevision := by
    unfold SessionNegotiation.demand
    split
    · rw [nextRevision_eq (hb ‹_›)]
      exact Nat.le_succ _
    · exact le_rfl
  unfold schedulePeerRenegotiation
  dsimp only
  split
  · -- the flush is asked for only while a revision is unanswered
    rename_i hc
    simp only [Bool.and_eq_true, Bool.not_eq_eq_eq_not, Bool.not_true] at hc
    obtain ⟨first, due, htouch⟩ := touch_eq (p.neg.demand bumpRevision) now
    rw [htouch]
    exact ⟨⟨fun _ => ⟨hc.1.1, hc.1.2, hc.2, of_decide_eq_true hc.2⟩, h.answered_le⟩, rfl, rfl, rfl,
      hle⟩
  · refine ⟨⟨fun hn => ?_, h.answered_le⟩, rfl, rfl, rfl, hle⟩
    obtain ⟨he, ho, -, hlt⟩ := h.needed hn
    exact ⟨he, ho, decide_eq_true (hlt.trans_le hle), hlt.trans_le hle⟩

/-- The condition on the block of a schedule call: the revisions do not wrap, and a session that is
queued or about to be put back, if the block leaves it in need of an offer, was waiting for one
before and is not due earlier now. -/
def ScheduleOk (v : Server ι) (s : ι) (bumpRevision : Bool) (now : ℕ) : Prop :=
  let n := (v.peers s).neg
  let n' := schedulePeerRenegotiation n (v.peers s).established bumpRevision now
  (bumpRevision = true → n.desiredOfferRevision + 1 < 2 ^ 64) ∧
    (n.renegotiationQueued = true ∨ v.loop.returning = some s → n'.negotiationNeeded = true →
      n.negotiationNeeded = true ∧ n.negotiationDueMs ≤ n'.negotiationDueMs)

lemma good_schedule (h : Good v) (s : ι) (bumpRevision : Bool) (now : ℕ)
    (hok : ScheduleOk v s bumpRevision now) : Good (step v (.schedule s bumpRevision now)) := by
  obtain ⟨hb, hplaced⟩ := hok
  unfold step
  dsimp only
  split
  · rename_i hacc
    obtain ⟨h1, h2, h3, h4, h5⟩ := schedule_peerGood (h.peers s) bumpRevision now hb
    refine h.of_setPeer (fun _ hc => mem_append_left _ hc) h1 h2
      (h.loop.of_setPeer _ ⟨id, h3, h4, h5⟩) ?_
    intro _ hn
    by_cases hp : (v.peers s).neg.renegotiationQueued = true ∨ v.loop.returning = some s
    · obtain ⟨hneed, hdue⟩ := hplaced hp hn
      exact .inr ⟨⟨hacc, hneed⟩, hdue⟩
    · rw [h.queue.queued_iff, not_or] at hp
      exact .inl ⟨hp.1, hp.2, mem_append_right _ (mem_singleton_self _)⟩
  · exact h

lemma good_reconcile (h : Good v) (s : ι)
    (hb : (v.peers s).neg.answeredRevision + 1 < 2 ^ 64) : Good (step v (.reconcile s)) := by
  unfold step
  dsimp only
  split
  · have hp := h.peers s
    have hle : (v.peers s).neg.desiredOfferRevision ≤
        (reconcileRemoteSlots (v.peers s).neg).desiredOfferRevision ∧
        (v.peers s).neg.answeredRevision <
          (reconcileRemoteSlots (v.peers s).neg).desiredOfferRevision := by
      simp only [reconcileRemoteSlots]
      split
      · rw [nextRevision_eq hb]
        omega
      · omega
    refine h.of_setPeer (fun _ hc => hc) ⟨?_, hp.answered_le⟩ rfl
      (h.loop.of_setPeer v.calls ⟨id, rfl, rfl, hle.1⟩) ?_
    · intro hn
      obtain ⟨h1, h2, -, -⟩ := hp.needed hn
      exact ⟨h1, h2, rfl, hle.2⟩
    · exact fun hacc hn => .inr ⟨⟨hacc, hn⟩, le_rfl⟩
  · exact h

omit [DecidableEq ι] in
/-- The queue changes under a waiting session: it keeps its cover as long as the calls it relies
on are kept. -/
lemma Covered.requeued (hr : Requeued v v') (hacc : (v.peers x).acceptsWork)
    (hc : Covered v x) (hold : x ∈ v'.queue.entries → x ∈ v.queue.entries)
    (hcalls : ∀ stage, ⟨x, stage⟩ ∈ v.calls → ⟨x, stage⟩ ∈ calls) :
    Covered { v' with calls := calls } x := by
  refine hc.imp hcalls ⟨hold, hr.mem x hacc⟩ (fun hret => ?_) hr.wake.trans (hr.timed hacc)
    fun hh => .inl (hh.mono hr.loop (hr.neg_due x).ge)
  rwa [← hr.loop]

omit [DecidableEq ι] in
lemma LoopGood.requeued (hr : Requeued v v') (h : LoopGood v) (calls : List (Call ι)) :
    LoopGood { v' with calls := calls } := by
  refine h.mono hr.loop fun x => ?_
  obtain ⟨b, hb⟩ := hr.peers x
  rw [hb]
  exact ⟨id, rfl, rfl, le_rfl⟩

lemma good_enqueueStep (h : Good v) (k : ℕ) (allocated : Bool)
    (hroom : v.queue.HasRoom v.stale) : Good (enqueueStep v k allocated) := by
  unfold enqueueStep
  split
  · rename_i s hk
    obtain ⟨hr, hq, hold, hel⟩ := enqueueOwned_spec h.queue hroom s allocated
    obtain ⟨hlt, hget⟩ := List.getElem?_eq_some_iff.1 hk
    refine ⟨hr.peerGood h.peers, { hq with }, h.loop.requeued hr _, ?_⟩
    intro x hx
    have hx' : Waiting v x := hr.waiting hx
    -- of the calls only the one that enqueues goes on or ends
    have hcalls : ∀ stage, (⟨x, stage⟩ : Call ι) ≠ ⟨s, .enqueue⟩ → ⟨x, stage⟩ ∈ v.calls →
        ⟨x, stage⟩ ∈ if (v.enqueueOwned s allocated).2 then v.calls.set k ⟨s, .wake⟩
          else v.calls.eraseIdx k := by
      intro stage hcs hc
      split
      · exact mem_set_of_ne hk hcs hc
      · exact mem_eraseIdx_of_ne hk hcs hc
    rcases eq_or_ne x s with rfl | hne
    · obtain ⟨hm, hfail⟩ := hel hx'.1 ((h.peers x).eligible hx'.1 hx'.2)
      rcases h.covered x hx' with hh | ⟨-, hc | hc | hc⟩ | ⟨hnot, -⟩
      · exact .inl (hh.mono hr.loop (hr.neg_due x).ge)
      · exact .inr (.inl ⟨hm, .inl (hr.wake.trans hc)⟩)
      · exact .inr (.inl ⟨hm, .inr (.inl (hcalls _ (by simp) hc))⟩)
      · exact .inr (.inl ⟨hm, .inr (.inr (hr.timed hx'.1 hc))⟩)
      · -- the session was not in the queue: the call goes on to wake the loop
        refine .inr (.inl ⟨hm, .inr (.inl ?_)⟩)
        cases hb : (v.enqueueOwned x allocated).2 with
        | true =>
          rw [if_pos rfl]
          exact mem_set hlt _
        | false => exact absurd ((h.queue.queued_iff x).1 (hfail hb)) hnot
    · refine (h.covered x hx').requeued hr hx'.1 (hold x hne) fun stage hc => hcalls stage ?_ hc
      rw [ne_eq, Call.mk.injEq]
      exact fun hc => hne hc.1
  · exact h

omit [DecidableEq ι] in
lemma good_signalStep (h : Good v) (k : ℕ) : Good (signalStep v k) := by
  unfold signalStep
  split
  · rename_i s hk
    refine h.of_same rfl rfl h.loop fun x hcov => ?_
    rcases hcov with hc | ⟨hm, -⟩ | ⟨hm, hr, hc⟩
    · exact .inl hc
    · exact .inr (.inl ⟨hm, .inl rfl⟩)
    · exact .inr (.inr ⟨hm, hr, mem_eraseIdx_of_ne hk (by simp) hc⟩)
  · exact h

end Threads

/-! ### The steps of the loop -/

section LoopSteps

lemma good_answer (h : Good v) (hl : v.loop = .idle) (s : ι) (received : ℕ) :
    Good (v.setNeg s (answerLocked (v.peers s).neg received)) := by
  have hp := h.peers s
  have hloop : LoopGood { v.setPeer s { v.peers s with
      neg := answerLocked (v.peers s).neg received } with calls := v.calls } := by
    unfold LoopGood
    change match v.loop with | .sending .. => _ | .watching .. => _ | .requeueing .. => _ | _ => _
    rw [hl]
    trivial
  refine h.of_setPeer (fun _ hc => hc) ?_ ?_ hloop ?_
  · -- an outstanding offer is not needed, so the answer leaves nothing to wait for
    unfold answerLocked
    cases ho : (v.peers s).neg.offerOutstanding with
    | true =>
      refine ⟨?_, le_rfl⟩
      intro hn
      exact absurd ((hp.needed hn).2.1.symm.trans ho) (by simp)
    | false =>
      refine ⟨?_, hp.answered_le⟩
      intro hn
      obtain ⟨h1, h2, h3, h4⟩ := hp.needed hn
      exact ⟨h1, ho, decide_eq_true h4, h4⟩
  · unfold answerLocked
    split <;> rfl
  · intro hacc hn
    refine .inr ⟨⟨hacc, ?_⟩, ?_⟩
    · unfold answerLocked at hn
      split at hn <;> exact hn
    · unfold answerLocked
      split <;> exact le_rfl

section

omit [DecidableEq ι]

lemma good_starting (h : Good v) (hl : v.loop = .idle) (wake : Bool) (timer : Option ℕ) :
    Good { v with wake := wake, timer := timer, loop := .starting } := by
  refine h.of_same rfl rfl trivial fun x hcov => ?_
  rcases hcov with hc | ⟨hm, -⟩ | ⟨hm, -, hc⟩
  · exact absurd hc (not_held (by rw [hl]; rfl))
  · exact .inr (.inl ⟨hm, .inr (.inr (.inr (.inl rfl)))⟩)
  · exact .inr (.inr ⟨hm, nofun, hc⟩)

lemma good_flushStep (h : Good v) (hl : v.loop = .starting) :
    Good { v with loop := .popping v.queue.count 0 } := by
  refine h.of_same rfl rfl trivial fun x hcov => ?_
  rcases hcov with hc | ⟨hm, -⟩ | ⟨hm, -, hc⟩
  · exact absurd hc (not_held (by rw [hl]; rfl))
  · -- the flush counts every entry there is
    refine .inr (.inl ⟨hm, .inr (.inr (.inr (.inr ⟨_, _, rfl, .inl ?_⟩)))⟩)
    rw [take_of_length_le]
    · exact hm
    · simp [Queue.entries, Queue.count]
  · exact .inr (.inr ⟨hm, nofun, hc⟩)

lemma good_endFlush (h : Good v) (hl : v.loop = .popping remaining earliest)
    (hno : v.queue.entries.take remaining = []) : Good (v.endFlush earliest) := by
  refine h.of_same rfl rfl trivial fun x hcov => ?_
  refine hcov.imp (fun _ hc => hc) .rfl nofun id (fun ht => ?_)
    (fun hc => absurd hc (not_held (by rw [hl]; rfl)))
  rcases ht.of_progress (by rw [hl]; rfl) with hc | ⟨he, hle⟩
  · rw [hno] at hc
    cases hc
  · exact .inl ⟨rfl, earliest, by simp [Server.endFlush, he], hle⟩

end

lemma good_popStep (h : Good v) (hl : v.loop = .popping (remaining + 1) earliest) :
    Good (popStep v remaining earliest) := by
  have hpop := pop_popped h.queue.sound
  generalize hres : v.queue.pop = result at hpop
  cases hpop with
  | fallback _ _ hfb =>
    rw [h.queue.fallback] at hfb
    cases hfb
  | empty hnil =>
    have hv : popStep v remaining earliest = v.endFlush earliest := by
      unfold popStep
      rw [hres]
    rw [hv]
    exact good_endFlush h hl (by rw [hnil, take_nil])
  | @ring q s hsound hcons _ hfb =>
    have hv : popStep v remaining earliest = { v with
        queue := q, loop := .holding s remaining earliest }.setQueued s false := by
      unfold popStep
      rw [hres]
    have hnodup := h.queue.nodup
    rw [hcons] at hnodup
    obtain ⟨hnot, hnodup'⟩ := nodup_cons.1 hnodup
    have hiff : ∀ x ≠ s, (x ∈ q.entries ↔ x ∈ v.queue.entries) := by
      intro x hne
      rw [hcons, mem_cons]
      simp [hne]
    rw [hv]
    refine ⟨?_, ⟨hsound, hfb, hnodup', ?_⟩, trivial, ?_⟩
    · intro x
      obtain ⟨b, hb⟩ := setQueued_same { v with
        queue := q, loop := .holding s remaining earliest } s x false
      rw [hb]
      exact (h.peers x).queued b
    · intro x
      rw [setQueued_peers]
      change _ ↔ x ∈ q.entries
      rcases eq_or_ne x s with rfl | hne
      · simp [hnot]
      · rw [if_neg hne, hiff x hne]
        exact h.queue.queued_iff x
    · intro x hx
      rcases eq_or_ne x s with rfl | hne
      · exact .inl (.inl ⟨_, _, rfl⟩)
      have hx' : Waiting v x := by
        unfold Waiting at hx ⊢
        rw [setQueued_peers, if_neg hne] at hx
        exact hx
      refine (h.covered x hx').imp (fun _ hc => hc) (hiff x hne) nofun id (fun ht => ?_)
        (fun hc => absurd hc (not_held (by rw [hl]; rfl)))
      refine .inr (.inr ⟨remaining, earliest, rfl, ?_⟩)
      rw [setQueued_peers, if_neg hne]
      rcases ht.of_progress (by rw [hl]; rfl) with hc | hc
      · rw [hcons, take_succ_cons, mem_cons] at hc
        exact .inl (hc.resolve_left hne)
      · exact .inr hc

/-- What the flush's block does with a session: it is put back for its due time, or it has
nothing to wait for any more. -/
structure Decided (p : Peer) (d : SessionNegotiation × Decision) : Prop where
  peer : PeerGood { p with neg := d.1 }
  queued : d.1.renegotiationQueued = p.neg.renegotiationQueued
  requeue : d.2 = .requeue → d.1.negotiationDueMs ≠ 0
  send : ∀ r, d.2 = .send r → p.established = true ∧ d.1.offerOutstanding = true ∧
    d.1.answeredRevision < r ∧ r ≤ d.1.desiredOfferRevision
  let_go : d.2 ≠ .requeue → d.1.negotiationNeeded = false

lemma offerOrWait_decided {n : SessionNegotiation} (now : ℕ)
    (hle : n.answeredRevision ≤ n.offeredRevision)
    (hq : n.renegotiationQueued = p.neg.renegotiationQueued)
    (hwait : now < n.negotiationDueMs → PeerGood { p with neg := n }) :
    Decided p (offerOrWait n p.readiness now) := by
  rcases offerOrWait_cases n p.readiness now with ⟨heq, -, hlt⟩ | heq | ⟨heq, hest, -, hlt⟩ <;>
    rw [heq]
  · exact ⟨hwait hlt, hq, fun _ => by dsimp only; omega, by simp, by simp⟩
  · exact ⟨⟨by simp, hle⟩, hq, by simp, by simp, by simp⟩
  · refine ⟨⟨by simp, hle⟩, hq, by simp, ?_, by simp⟩
    rintro r ⟨rfl⟩
    exact ⟨hest, rfl, lt_of_le_of_lt hle hlt, le_rfl⟩

lemma flushPendingOffer_decided (h : PeerGood p) (now : ℕ) :
    Decided p (flushPendingOffer p.neg p.readiness now) := by
  unfold flushPendingOffer
  split
  · rename_i hw
    unfold expireUnansweredOffer
    cases ht : p.neg.timedOut now with
    | true =>
      -- the expired offer is due now, so it is not put back
      exact offerOrWait_decided now h.answered_le rfl (fun hlt => absurd hlt (lt_irrefl now))
    | false =>
      refine ⟨⟨h.needed, h.answered_le⟩, rfl, ?_, by simp, by simp⟩
      intro _
      simp [offerTimeoutMs]
  · exact offerOrWait_decided now h.answered_le rfl (fun _ => h)

/-- The session in hand changes and the loop moves on within the flush: the cover of the others
is kept. -/
lemma Covered.in_hand (hc : Covered v x) (hne : x ≠ s)
    (hpr : v.loop.progress = some (remaining, earliest)) (hheld : ∀ y, Held v y → y = s)
    (p : Peer) {l' : Loop ι} (hpr' : l'.progress = some (remaining, earliest))
    (hret : ∀ y, l'.returning = some y → y = s) :
    Covered { v.setPeer s p with loop := l' } x := by
  refine hc.imp (fun _ hc => hc) .rfl (fun hr => absurd (hret x hr) hne) id (fun ht => ?_)
    fun hh => absurd (hheld x hh) hne
  refine .inr (.inr ⟨remaining, earliest, hpr', ?_⟩)
  change x ∈ v.queue.entries.take remaining ∨
    (earliest ≠ 0 ∧ earliest ≤ ((v.setPeer s p).peers x).neg.negotiationDueMs)
  rw [setPeer_peers, if_neg hne]
  exact ht.of_progress hpr

/-- **The session in hand**: the loop replaces its record and moves on to `l'`. -/
lemma Good.of_hand (h : Good v) (hpr : v.loop.progress = some (remaining, earliest))
    (hheld : ∀ y, Held v y → y = s) (l' : Loop ι) (hp : PeerGood p)
    (hq : p.neg.renegotiationQueued = (v.peers s).neg.renegotiationQueued)
    (hpr' : l'.progress = some (remaining, earliest)) (hret : ∀ y, l'.returning = some y → y = s)
    (hl : LoopGood { v.setPeer s p with loop := l' })
    (hw : p.acceptsWork → p.neg.negotiationNeeded →
      Covered { v.setPeer s p with loop := l' } s) : Good { v.setPeer s p with loop := l' } := by
  exact h.of_peer (fun x => setPeer_peers v s x p) rfl hp hq hl
    (fun _ hne hc => hc.in_hand hne hpr hheld p hpr' hret) hw

lemma good_decideStep (h : Good v) (hl : v.loop = .holding s remaining earliest) (now : ℕ) :
    Good (decideStep v s remaining earliest now) := by
  have hpr : v.loop.progress = some (remaining, earliest) := by rw [hl]; rfl
  have hheld : ∀ y, Held v y → y = s := fun _ hy => hy.eq (by rw [hl]; rfl)
  have hd := flushPendingOffer_decided (h.peers s) now
  unfold decideStep
  dsimp only
  cases hf : flushPendingOffer (v.peers s).neg (v.peers s).readiness now with
  | mk n decision =>
    rw [hf] at hd
    cases decision with
    | requeue =>
      refine h.of_hand hpr hheld (.requeueing s n.negotiationDueMs remaining earliest) hd.peer
        hd.queued rfl (fun _ hy => (Option.some.inj hy).symm) (hd.requeue rfl) ?_
      intro _ _
      exact .inl (.inr ⟨_, _, _, rfl, by rw [setPeer_self]⟩)
    | send attemptRevision =>
      refine h.of_hand hpr hheld (.sending s attemptRevision now remaining earliest) hd.peer
        hd.queued rfl nofun ?_ ?_
      · unfold LoopGood
        dsimp only
        rw [setPeer_self]
        exact hd.send attemptRevision rfl
      · intro _ hn
        exact absurd ((hd.let_go (by simp)).symm.trans hn) (by simp)
    | skip =>
      refine h.of_hand hpr hheld (.popping remaining earliest) hd.peer hd.queued rfl nofun trivial
        ?_
      intro _ hn
      exact absurd ((hd.let_go (by simp)).symm.trans hn) (by simp)

lemma good_sendDoneStep (h : Good v) {attemptRevision begun : ℕ}
    (hl : v.loop = .sending s attemptRevision begun remaining earliest) (ok : Bool)
    (manifestGeneration now : ℕ) :
    Good (sendDoneStep v s attemptRevision begun remaining earliest ok manifestGeneration now) := by
  have hpr : v.loop.progress = some (remaining, earliest) := by rw [hl]; rfl
  have hheld : ∀ y, Held v y → y = s := fun _ hy => absurd hy (not_held (by rw [hl]; rfl))
  have hlg := h.loop
  unfold LoopGood at hlg
  rw [hl] at hlg
  obtain ⟨hest, hout, hlt, hle⟩ := hlg
  have hp := h.peers s
  -- an outstanding offer is not needed
  have hneed : (v.peers s).neg.negotiationNeeded = false := by
    by_contra hn
    have := (hp.needed (by simpa using hn)).2.1
    rw [hout] at this
    cases this
  unfold sendDoneStep
  cases ok with
  | true =>
    rw [if_pos rfl]
    refine h.of_hand hpr hheld (.watching s (begun + offerTimeoutMs) remaining earliest)
      ⟨?_, hlt.le⟩ rfl rfl nofun ?_ ?_
    · intro hn
      exact absurd (hneed.symm.trans hn) (by simp)
    · unfold LoopGood
      dsimp only
      rw [setPeer_self]
      exact ⟨hout, by simp [offerTimeoutMs]⟩
    · intro _ hn
      exact absurd (hneed.symm.trans hn) (by simp)
  | false =>
    have hrf : recordFailed (v.peers s).neg now = ({ (v.peers s).neg with
        offerOutstanding := false
        offerSentMs := 0
        renegotiationPending := true
        negotiationRetryCount := ((v.peers s).neg.negotiationRetryCount + 1) % 2 ^ 32
        negotiationDueMs := now + retryMs (((v.peers s).neg.negotiationRetryCount + 1) % 2 ^ 32)
        negotiationNeeded := true }, true) := by
      simp [recordFailed, hout]
    have hpos : ∀ c, 0 < retryMs c := by
      intro c
      have hsh : 0 < 15 <<< min c 5 := by
        rw [Nat.shiftLeft_eq]
        positivity
      unfold retryMs retryMaxMs
      omega
    simp only [Bool.false_eq_true, if_false, hrf, if_true]
    refine h.of_hand hpr hheld (.requeueing s _ remaining earliest) ⟨?_, hp.answered_le⟩ rfl rfl
      (fun _ hy => (Option.some.inj hy).symm) ?_ ?_
    · intro _
      exact ⟨hest, rfl, rfl, lt_of_lt_of_le hlt hle⟩
    · change now + retryMs _ ≠ 0
      have := hpos (((v.peers s).neg.negotiationRetryCount + 1) % 2 ^ 32)
      omega
    · intro _ _
      exact .inl (.inr ⟨_, _, _, rfl, by rw [setPeer_self]⟩)

lemma earlier_spec (earliest : ℕ) {due : ℕ} (hd : due ≠ 0) :
    earlier earliest due ≠ 0 ∧ earlier earliest due ≤ due ∧
      (earliest ≠ 0 → earlier earliest due ≤ earliest) := by
  unfold earlier
  split <;> omega

/-- The loop puts the session in its hand back, or finds it queued, and pops on. -/
lemma good_putBack (h : Good v) {earliest' : ℕ} (allocated : Bool)
    (hpr : v.loop.progress = some (remaining, earliest)) (hroom : v.queue.HasRoom v.stale)
    (hheld : ∀ y, Held v y → y = s ∧ earliest' ≠ 0 ∧ earliest' ≤ (v.peers y).neg.negotiationDueMs)
    (hself : Waiting v s → v.loop.returning = some s)
    (hmono : earliest ≠ 0 → earliest' ≠ 0 ∧ earliest' ≤ earliest) :
    Good { (v.enqueueOwned s allocated).1 with loop := .popping remaining earliest' } := by
  obtain ⟨hr, hq, hold, hel⟩ := enqueueOwned_spec h.queue hroom s allocated
  refine ⟨hr.peerGood h.peers, { hq with }, trivial, ?_⟩
  intro x hx
  have hx' : Waiting v x := hr.waiting hx
  have hin : s = x → x ∈ (v.enqueueOwned s allocated).1.queue.entries := by
    rintro rfl
    exact (hel hx'.1 ((h.peers s).eligible hx'.1 hx'.2)).1
  rcases h.covered x hx' with hh | ⟨hm, hc | hc | hc⟩ | ⟨hm, hret, hc⟩
  · -- the session in hand has its due time counted in
    obtain ⟨rfl, he, hle⟩ := hheld x hh
    exact .inr (.inl ⟨hin rfl, .inr (.inr (.inr (.inr ⟨_, _, rfl,
      .inr ⟨he, hle.trans (hr.neg_due x).ge⟩⟩)))⟩)
  · exact .inr (.inl ⟨hr.mem x hx'.1 hm, .inl (hr.wake.trans hc)⟩)
  · exact .inr (.inl ⟨hr.mem x hx'.1 hm, .inr (.inl (hr.calls ▸ hc))⟩)
  · refine .inr (.inl ⟨hr.mem x hx'.1 hm, .inr (.inr (.inr (.inr ⟨_, _, rfl, ?_⟩)))⟩)
    rcases hc.of_progress hpr with hc | ⟨he, hle⟩
    · exact .inl (hr.mem_take x _ hx'.1 hc)
    · exact .inr ⟨(hmono he).1, ((hmono he).2.trans hle).trans (hr.neg_due x).ge⟩
  · have hne : x ≠ s := by
      rintro rfl
      exact hret (hself hx')
    exact .inr (.inr ⟨fun hm' => hm (hold x hne hm'), nofun, hr.calls ▸ hc⟩)

/-- The condition under which no wake-up is lost: a trigger on a queued session finds it waiting
and does not move its due time forward, every enqueue finds room in the ring, and the revisions do
not wrap. -/
def StepOk (v : Server ι) : Op ι → Prop
  | .schedule s bumpRevision now => ScheduleOk v s bumpRevision now
  | .reconcile s => (v.peers s).neg.answeredRevision + 1 < 2 ^ 64
  | .enqueue _ _ => v.queue.HasRoom v.stale
  | .requeue _ => v.queue.HasRoom v.stale
  | .watch _ => v.queue.HasRoom v.stale
  | _ => True

lemma good_loopStep (h : Good v) (op : Op ι) (hok : StepOk v op) : Good (loopStep v v.loop op) := by
  unfold loopStep
  split
  · rename_i s received hl
    exact good_answer h hl s received
  · rename_i hl
    split
    · exact good_starting h hl v.wake none
    · exact h
  · rename_i hl
    split
    · exact good_starting h hl false v.timer
    · exact h
  · rename_i hl
    exact good_flushStep h hl
  · rename_i earliest hl
    exact good_endFlush h hl (take_zero)
  · rename_i remaining earliest hl
    exact good_popStep h hl
  · rename_i s remaining earliest now hl
    exact good_decideStep h hl now
  · rename_i s due remaining earliest allocated hl
    have hlg := h.loop
    unfold LoopGood at hlg
    rw [hl] at hlg
    obtain ⟨h1, h2, h3⟩ := earlier_spec earliest hlg
    refine good_putBack h allocated (by rw [hl]; rfl) hok ?_ (fun _ => by rw [hl]; rfl)
      (fun he => ⟨h1, h3 he⟩)
    intro y hy
    unfold Held at hy
    rw [hl] at hy
    rcases hy with ⟨_, _, hy⟩ | ⟨_, _, _, hy, hle⟩
    · cases hy
    · cases hy
      exact ⟨rfl, h1, h2.trans hle⟩
  · rename_i s attemptRevision begun remaining earliest ok manifestGeneration now hl
    exact good_sendDoneStep h hl ok manifestGeneration now
  · rename_i s due remaining earliest allocated hl
    have hlg := h.loop
    unfold LoopGood at hlg
    rw [hl] at hlg
    obtain ⟨h1, h2, h3⟩ := earlier_spec earliest hlg.2
    refine good_putBack h allocated (by rw [hl]; rfl) hok ?_ ?_ ?_
    · exact fun y hy => absurd hy (not_held (by rw [hl]; rfl))
    · -- a session with an outstanding offer does not wait for one
      intro hw
      exact absurd (((h.peers s).needed hw.2).2.1.symm.trans hlg.1) (by simp)
    · intro he
      split
      · exact ⟨h1, h3 he⟩
      · exact ⟨he, le_rfl⟩
  · exact h

lemma good_step (h : Good v) (op : Op ι) (hok : StepOk v op) : Good (step v op) := by
  cases op with
  | establish s => exact good_establish h s
  | close s => exact good_close h s
  | setFd s fdOpen => exact good_setFd h s fdOpen
  | schedule s bumpRevision now => exact good_schedule h s bumpRevision now hok
  | reconcile s => exact good_reconcile h s hok
  | enqueue k allocated => exact good_enqueueStep h k allocated hok
  | signal k => exact good_signalStep h k
  | answer | timerFires | wakes | flush | pop | decide | requeue | sendDone | watch =>
    exact good_loopStep h _ hok

end LoopSteps

/-- The claim of a state: an idle loop has a wake or an early enough timer coming for every
session that needs an offer. -/
def NoLostWake (v : Server ι) : Prop :=
  v.loop = .idle → ∀ s, (v.peers s).established = true → (v.peers s).acceptsWork = true →
    (v.peers s).neg.negotiationNeeded = true → (v.peers s).neg.offerOutstanding = false →
    (∀ c ∈ v.calls, c.session ≠ s) →
    v.wake = true ∨ ∃ t, v.timer = some t ∧ t ≤ (v.peers s).neg.negotiationDueMs

omit [DecidableEq ι] in
lemma Good.noLostWake (h : Good v) : NoLostWake v := by
  intro hl s _ hacc hn _ hcalls
  rcases h.covered s ⟨hacc, hn⟩ with hc | ⟨-, hc | hc | hc⟩ | ⟨-, -, hc⟩
  · exact absurd hc (not_held (by rw [hl]; rfl))
  · exact .inl hc
  · exact absurd rfl (hcalls _ hc)
  · rcases hc with ⟨-, hc⟩ | hc | ⟨_, _, hc, -⟩
    · exact .inr hc
    · rw [hl] at hc
      cases hc
    · rw [hl] at hc
      cases hc
  · exact absurd rfl (hcalls _ hc)

/-- A session is offered to and answers; then a trigger finds its entry still queued as the
watch of the answered offer. -/
def followUp : List (Op Unit) :=
  [.establish (), .schedule () true 0, .enqueue 0 true, .signal 0, .wakes, .flush, .pop, .decide 20,
    .sendDone true 1 21, .watch true, .pop, .answer () 1, .schedule () true 100, .enqueue 0 true]

/-- The follow-up offer is due at 115 and the timer is armed for 5020. -/
theorem followUp_lost_wake : ¬ NoLostWake (run followUp) := by
  intro h
  have hcalls : ∀ c ∈ (run followUp).calls, c.session ≠ () := by
    have hnil : (run followUp).calls = [] := rfl
    simp [hnil]
  rcases h rfl () (by decide) (by decide) (by decide) (by decide) hcalls with hw | ⟨t, ht, hle⟩
  · exact absurd hw (by decide)
  have htimer : (run followUp).timer = some 5020 := by decide
  have hdue : ((run followUp).peers ()).neg.negotiationDueMs = 115 := by decide
  rw [htimer] at ht
  cases ht
  omega

/-- **No lost wake-up**, for runs in which a trigger on a queued session finds it waiting for an
offer already, for a time that is not later. -/
theorem no_lost_wake [Inhabited ι] (ops : List (Op ι))
    (hok : Runs.Along step StepOk (Server.init : Server ι) ops) : NoLostWake (run ops) :=
  (Runs.run_inv_along step (I := Good) (fun _ op h hc => good_step h op hc) good_init
    hok).noLostWake

/-- A second trigger finds the session queued, with the timer at the due time of the first. -/
theorem no_lost_wake_debounced :
    let ops : List (Op Unit) := [.establish (), .schedule () true 0, .enqueue 0 true, .signal 0,
      .wakes, .flush, .pop, .decide 5, .requeue true, .pop, .schedule () true 8, .enqueue 0 true]
    NoLostWake (run ops) ∧ ((run ops).peers ()).neg.negotiationNeeded = true ∧
      (run ops).timer = some 15 := by
  intro ops
  refine ⟨no_lost_wake ops ?_, by decide, by decide⟩
  have hroom : ∀ v : Server Unit, v.queue.ring.count < queueCap → v.queue.HasRoom v.stale :=
    fun _ hlt => .inl hlt
  refine ⟨trivial, ⟨fun _ => by decide, fun hp => absurd hp (by decide)⟩, hroom _ (by decide),
    trivial, trivial, trivial, trivial, trivial, hroom _ (by decide), trivial,
    ⟨fun _ => by decide, fun _ _ => by decide⟩, hroom _ (by decide), trivial⟩

end MezonSfu.Renegotiation
