import MezonSfu.Renegotiation

/-!
The references that the renegotiation queue owns.

An entry of the queue is a reference to its session, handed over by the call that made the entry
and returned to the call that takes it out, be it a pop or the enqueue that reclaims it. The
references are numbered as they are handed over; the numbers, the references returned and the
assertion of the pop are history. Between the calls, which run under the queue lock, other threads
change the sessions, all but the queued flag. The server of all threads follows this ledger.
-/

namespace MezonSfu.RenegotiationQueue

open List

variable {ι : Type*} {q : Queue ι}

def Queue.refs (q : Queue ι) : List ι := q.entries ++ q.fallback.map FallbackNode.session

/-! ### Mapping -/

def Queue.map {κ : Type*} (f : ι → κ) (q : Queue ι) : Queue κ :=
  ⟨q.ring.map f, q.fallback.map fun node => ⟨f node.session, node.emergency⟩, q.fallbackCount,
    q.emergencyFallbackUsed⟩

section Map

variable {κ : Type*} (f : ι → κ)

lemma pop_map : (q.map f).pop = (q.pop.1.map f, q.pop.2.map f) := by
  unfold Queue.pop Queue.map
  cases hf : q.fallback with
  | nil =>
    change (if 0 < q.ring.count then _ else _) = _
    split
    · rfl
    · rw [hf]
      rfl
  | cons node rest => rfl

lemma reclaim_map (stale : κ → Bool) : (q.map f).reclaim stale =
    ((q.reclaim (stale ∘ f)).1.map f, (q.reclaim (stale ∘ f)).2.map f) := by
  have hoffset : (q.map f).staleOffset stale = q.staleOffset (stale ∘ f) := rfl
  unfold Queue.reclaim
  rw [hoffset]
  change (if queueCap ≤ q.ring.count then _ else _) = _
  split
  · cases q.staleOffset (stale ∘ f) with
    | none => rfl
    | some offset =>
      dsimp only [Queue.map]
      rw [Ring.map_removeAt]
      rfl
  · rfl

lemma insert_map (session : ι) (allocated : Bool) : (q.map f).insert (f session) allocated =
    ((q.insert session allocated).1.map f, (q.insert session allocated).2) := by
  unfold Queue.insert
  change (if q.ring.count < queueCap then _ else if allocated then _
    else if q.emergencyFallbackUsed then _ else _) = _
  split
  · dsimp only [Queue.map]
    rw [Ring.map_push]
  split
  · dsimp only [Queue.map]
    rw [map_append]
    rfl
  split
  · rfl
  · dsimp only [Queue.map]
    rw [map_append]
    rfl

lemma refs_map : (q.map f).refs = q.refs.map f := by
  unfold Queue.refs Queue.entries Ring.toList
  rw [map_append, map_map, map_map]
  exact congrArg _ map_map

end Map

end MezonSfu.RenegotiationQueue

namespace MezonSfu.Renegotiation

open RenegotiationQueue Negotiation Function List

structure Ref (ι : Type*) where
  session : ι
  number : ℕ
deriving Inhabited

inductive Receiver where
  | popper
  | fallbackPopper
  | reclaimer
deriving DecidableEq

structure Ledger (ι : Type*) where
  peers : ι → Peer
  queue : Queue (Ref ι)
  issued : ℕ
  returned : List (Ref ι × Receiver)
  /-- The assertion of `renegotiation_queue_pop` has not failed. -/
  asserted : Bool

inductive QueueOp (ι : Type*) where
  | change (s : ι) (p : Peer)
  | enqueueOwned (s : ι) (allocated : Bool)
  | pop

variable {ι : Type*} [DecidableEq ι]

namespace Ledger

def init [Inhabited ι] : Ledger ι := ⟨fun _ => .init, .init, 0, [], true⟩

def queued (l : Ledger ι) (s : ι) : Bool := (l.peers s).neg.renegotiationQueued

def setQueued (peers : ι → Peer) (s : ι) (queued : Bool) : ι → Peer :=
  update peers s
    { peers s with neg := { (peers s).neg with renegotiationQueued := queued } }

section

variable (l : Ledger ι)

def giveBack (q : Queue (Ref ι)) (r : Ref ι) (receiver : Receiver) : Ledger ι :=
  { l with
    peers := setQueued l.peers r.session false
    queue := q
    returned := l.returned ++ [(r, receiver)] }

def pop : Ledger ι :=
  match l.queue.pop with
  | (q, some r) =>
    { l.giveBack q r (if l.queue.fallback.isEmpty then .popper else .fallbackPopper) with
      asserted := l.asserted && l.queued r.session }
  | (_, none) => l

/-- The stale entry of a full ring is marked as not queued, and its reference released. -/
def reclaim : Ledger ι :=
  match l.queue.reclaim fun r => !(l.peers r.session).acceptsWork with
  | (q, some r) => l.giveBack q r .reclaimer
  | (q, none) => { l with queue := q }

/-- `renegotiation_queue_enqueue_owned`. A reference that is not consumed stays with the caller. -/
def enqueueOwned (s : ι) (allocated : Bool) : Ledger ι × Bool :=
  let l := l.reclaim
  if !l.queued s && (l.peers s).eligible then
    match l.queue.insert ⟨s, l.issued⟩ allocated with
    | (q, true) =>
      ({ l with peers := setQueued l.peers s true, queue := q, issued := l.issued + 1 }, true)
    | (q, false) => ({ l with queue := q }, false)
  else (l, false)

def step : QueueOp ι → Ledger ι
  | .change s p =>
    let p := { p with neg := { p.neg with renegotiationQueued := l.queued s } }
    { l with peers := update l.peers s p }
  | .enqueueOwned s allocated => (l.enqueueOwned s allocated).1
  | .pop => l.pop

/-- The references popped from the ring so far, in their order. -/
def ringPops : List (Ref ι) := (l.returned.filter (·.2 = .popper)).map Prod.fst

end

structure Owned (l : Ledger ι) : Prop where
  /-- The counters are the numbers of entries, and the emergency node is linked if used. -/
  sound : l.queue.Sound
  /-- A session has at most one entry. -/
  once : (l.queue.refs.map Ref.session).Nodup
  queued_iff : ∀ s, l.queued s = true ↔ s ∈ l.queue.refs.map Ref.session
  /-- A reference handed over is in the queue or was returned, once. -/
  conserved : ((l.queue.refs ++ l.returned.map Prod.fst).map Ref.number).Perm
    (List.range l.issued)
  /-- The ring is popped in the order of insertion. -/
  order : ((l.ringPops ++ l.queue.entries).map Ref.number).Pairwise (· < ·)
  asserted : l.asserted = true

variable {l : Ledger ι}

omit [DecidableEq ι] in
lemma owned_init [Inhabited ι] : Owned (init : Ledger ι) :=
  ⟨sound_init, .nil, fun _ => ⟨nofun, nofun⟩, .nil, .nil, rfl⟩

lemma setQueued_apply (peers : ι → Peer) (s x : ι) (b : Bool) :
    (setQueued peers s b x).neg.renegotiationQueued =
      if x = s then b else (peers x).neg.renegotiationQueued := by
  unfold setQueued
  by_cases h : x = s
  · rw [if_pos h, h, update_self]
  · rw [if_neg h, update_of_ne h]

omit [DecidableEq ι] in
lemma Owned.number_lt (h : Owned l) {r : Ref ι}
    (hr : r ∈ l.queue.refs ++ l.returned.map Prod.fst) : r.number < l.issued :=
  mem_range.1 (h.conserved.mem_iff.1 (mem_map_of_mem hr))

lemma Owned.giveBack (h : Owned l) {q : Queue (Ref ι)} {r : Ref ι} (receiver : Receiver)
    (hsound : q.Sound) (hperm : l.queue.refs.Perm (r :: q.refs))
    (horder : (((l.giveBack q r receiver).ringPops ++ q.entries).map Ref.number).Pairwise
      (· < ·)) : Owned (l.giveBack q r receiver) := by
  have hnodup : ((r :: q.refs).map Ref.session).Nodup := (hperm.map Ref.session).nodup_iff.1 h.once
  obtain ⟨hnot, hrest⟩ := nodup_cons.1 hnodup
  refine ⟨hsound, hrest, ?_, ?_, horder, h.asserted⟩
  · intro s
    have hs := (h.queued_iff s).trans (hperm.map Ref.session).mem_iff
    rw [map_cons, mem_cons] at hs
    change (setQueued l.peers r.session false s).neg.renegotiationQueued ↔
      s ∈ q.refs.map Ref.session
    rw [setQueued_apply]
    by_cases hsr : s = r.session
    · rw [if_pos hsr, hsr]
      exact ⟨nofun, fun hm => absurd hm hnot⟩
    · rw [if_neg hsr]
      exact hs.trans (or_iff_right hsr)
  · refine List.Perm.trans (List.Perm.map _ ?_) h.conserved
    change (q.refs ++ (l.returned ++ [(r, receiver)]).map Prod.fst).Perm _
    rw [map_append, map_singleton, ← append_assoc]
    exact perm_append_singleton _ _ |>.trans (hperm.symm.append_right _)

lemma Owned.take (h : Owned l) {q : Queue (Ref ι)} {s : ι} (hsound : q.Sound)
    (hfree : l.queued s = false) (hperm : q.refs.Perm (⟨s, l.issued⟩ :: l.queue.refs))
    (horder : ((l.ringPops ++ q.entries).map Ref.number).Pairwise (· < ·)) :
    Owned { l with peers := setQueued l.peers s true, queue := q, issued := l.issued + 1 } := by
  have hnot : s ∉ l.queue.refs.map Ref.session := by
    rw [← h.queued_iff, hfree]
    exact Bool.false_ne_true
  have hmap := hperm.map Ref.session
  refine ⟨hsound, hmap.nodup_iff.2 (nodup_cons.2 ⟨hnot, h.once⟩), ?_, ?_, horder, h.asserted⟩
  · intro x
    rw [hmap.mem_iff, map_cons, mem_cons, ← h.queued_iff]
    change (setQueued l.peers s true x).neg.renegotiationQueued ↔ _
    rw [setQueued_apply]
    by_cases hx : x = s
    · rw [if_pos hx]
      exact ⟨fun _ => .inl hx, fun _ => rfl⟩
    · rw [if_neg hx]
      exact (or_iff_right hx).symm
  · rw [range_succ]
    refine ((hperm.append_right _).map Ref.number).trans ?_
    exact (h.conserved.cons _).trans (perm_append_singleton _ _).symm

/-! ### The calls -/

omit [DecidableEq ι] in
lemma ringPops_concat (l : List (Ref ι × Receiver)) (r : Ref ι) (receiver : Receiver) :
    ((l ++ [(r, receiver)]).filter (·.2 = .popper)).map Prod.fst =
      (l.filter (·.2 = .popper)).map Prod.fst ++ if receiver = .popper then [r] else [] := by
  rw [filter_append, map_append]
  cases receiver <;> rfl

lemma Owned.pop (h : Owned l) : Owned l.pop := by
  have hflag : ∀ {r : Ref ι} {rest}, l.queue.refs.Perm (r :: rest) → l.queued r.session :=
    fun hp => (h.queued_iff _).2 (mem_map_of_mem (hp.mem_iff.2 mem_cons_self))
  have hpop := pop_popped h.sound
  unfold Ledger.pop
  generalize l.queue.pop = result at hpop ⊢
  cases hpop with
  | @fallback q' node hsound hentries hfallback =>
    have hperm : l.queue.refs.Perm (node.session :: q'.refs) := by
      unfold Queue.refs
      rw [hfallback, hentries]
      exact perm_middle
    dsimp only
    rw [hflag hperm, h.asserted, hfallback, isEmpty_cons]
    have hback := h.giveBack .fallbackPopper hsound hperm (by
      unfold ringPops Ledger.giveBack
      rw [ringPops_concat, hentries, if_neg nofun, append_nil]
      exact h.order)
    exact { hback with asserted := rfl }
  | @ring q' r hsound hentries hfallback hfallback' =>
    have hperm : l.queue.refs.Perm (r :: q'.refs) := by
      unfold Queue.refs
      rw [hfallback, hfallback', hentries, cons_append]
    dsimp only
    rw [hflag hperm, h.asserted, hfallback, isEmpty_nil]
    have hback := h.giveBack .popper hsound hperm (by
      unfold ringPops Ledger.giveBack
      rw [ringPops_concat, if_pos rfl, append_assoc, singleton_append, ← hentries]
      exact h.order)
    exact { hback with asserted := rfl }
  | empty => exact h

lemma Owned.reclaim (h : Owned l) : Owned l.reclaim := by
  have hcases := reclaim_reclaimed h.sound fun r => !(l.peers r.session).acceptsWork
  unfold Ledger.reclaim
  generalize l.queue.reclaim _ = result at hcases ⊢
  cases hcases with
  | kept => exact h
  | @removed q' offset r hsound hr hentries hfallback =>
    obtain ⟨hlt, hget⟩ := List.getElem?_eq_some_iff.1 hr
    have hperm : l.queue.refs.Perm (r :: q'.refs) := by
      unfold Queue.refs
      rw [hfallback, hentries, ← cons_append, ← hget]
      exact (getElem_cons_eraseIdx_perm hlt).symm.append_right _
    refine h.giveBack .reclaimer hsound hperm ?_
    -- what is left of the ring keeps its order
    unfold ringPops Ledger.giveBack
    rw [ringPops_concat, if_neg nofun, append_nil, hentries]
    exact h.order.sublist (((eraseIdx_sublist _ _).append_left _).map _)

lemma Owned.enqueueOwned (h : Owned l) (s : ι) (allocated : Bool) :
    Owned (l.enqueueOwned s allocated).1 := by
  have h' := h.reclaim
  unfold Ledger.enqueueOwned
  generalize l.reclaim = l' at h' ⊢
  dsimp only
  split
  · rename_i hwant
    have hfree : l'.queued s = false := by
      rw [Bool.and_eq_true, Bool.not_eq_true'] at hwant
      exact hwant.1
    have hins := insert_inserted h'.sound ⟨s, l'.issued⟩ allocated
    generalize l'.queue.insert _ _ = result at hins ⊢
    cases hins with
    | @ring q hsound hentries hfallback =>
      refine h'.take hsound hfree ?_ ?_
      · unfold Queue.refs
        rw [hfallback, hentries, append_assoc, singleton_append]
        exact perm_middle
      -- the new reference has the largest number
      rw [hentries, ← append_assoc, map_append, pairwise_append]
      refine ⟨h'.order, pairwise_singleton _ _, ?_⟩
      intro a ha b hb
      obtain ⟨r, hr, rfl⟩ := mem_map.1 ha
      rw [map_singleton, mem_singleton] at hb
      rw [hb]
      refine h'.number_lt ?_
      rcases mem_append.1 hr with hr | hr
      · obtain ⟨p, hp, rfl⟩ := mem_map.1 hr
        exact mem_append_right _ (mem_map_of_mem (mem_of_mem_filter hp))
      · exact mem_append_left _ (mem_append_left _ hr)
    | @fallback q emergency hsound hentries hfallback =>
      refine h'.take hsound hfree ?_ ?_
      · unfold Queue.refs
        rw [hfallback, hentries, map_append, ← append_assoc]
        exact perm_append_singleton _ _
      · rw [hentries]
        exact h'.order
    | refused => exact h'
  · exact h'

lemma Owned.change (h : Owned l) (s : ι) (p : Peer) : Owned (l.step (.change s p)) := by
  refine { h with queued_iff := ?_ }
  intro x
  refine Iff.trans ?_ (h.queued_iff x)
  change (update l.peers s _ x).neg.renegotiationQueued ↔ _
  by_cases hx : x = s
  · rw [hx, update_self]
  · rw [update_of_ne hx]
    rfl

lemma Owned.step (h : Owned l) (op : QueueOp ι) : Owned (l.step op) := by
  cases op with
  | change s p => exact h.change s p
  | enqueueOwned s allocated => exact h.enqueueOwned s allocated
  | pop => exact h.pop

/-- Along every run a session has at most one entry and its flag says whether it has one, the
counters are right, the ring is popped in the order of insertion, and every reference handed over
is in the queue or was returned once. -/
theorem queue_refs_owned [Inhabited ι] (ops : List (QueueOp ι)) : Owned (Runs.run step init ops) :=
  Runs.run_inv step (I := Owned) (fun _ op h => h.step op) owned_init ops

/-- The server has these sessions, and this queue without the numbers. -/
structure Matches (l : Ledger ι) (v : Server ι) : Prop where
  peers : v.peers = l.peers
  queue : v.queue = l.queue.map Ref.session

variable {v : Server ι}

lemma Matches.setQueued (h : Matches l v) (s : ι) (b : Bool) :
    (v.setQueued s b).peers = Ledger.setQueued l.peers s b := by
  change update v.peers s _ = update l.peers s _
  rw [h.peers]

lemma Matches.reclaim (h : Matches l v) : Matches l.reclaim v.reclaim := by
  have hstale : (v.stale ∘ Ref.session) = fun r => !(l.peers r.session).acceptsWork := by
    funext r
    rw [comp_apply, Server.stale, h.peers]
  unfold Ledger.reclaim Server.reclaim
  rw [h.queue, reclaim_map, hstale]
  generalize l.queue.reclaim _ = result
  obtain ⟨q, _ | r⟩ := result
  · exact ⟨h.peers, rfl⟩
  · exact ⟨h.setQueued r.session false, rfl⟩

lemma Matches.enqueueOwned (h : Matches l v) (s : ι) (allocated : Bool) :
    Matches (l.enqueueOwned s allocated).1 (v.enqueueOwned s allocated).1 := by
  have h' := h.reclaim
  unfold Ledger.enqueueOwned Server.enqueueOwned queued
  generalize l.reclaim = l' at h' ⊢
  dsimp only
  rw [h'.peers]
  split
  · rw [h'.queue, show s = Ref.session ⟨s, l'.issued⟩ from rfl, insert_map]
    generalize l'.queue.insert _ _ = result
    obtain ⟨q, _ | _⟩ := result
    · exact ⟨rfl, rfl⟩
    · exact ⟨rfl, rfl⟩
  · exact h'

lemma Matches.pop (h : Matches l v) (remaining earliest : ℕ) :
    Matches l.pop (popStep v remaining earliest) := by
  unfold Ledger.pop popStep
  rw [h.queue, pop_map]
  generalize l.queue.pop = result
  obtain ⟨q, _ | r⟩ := result
  · exact ⟨h.peers, h.queue⟩
  · exact ⟨h.setQueued r.session false, rfl⟩

/-- Some operations of the ledger keep up with the server. -/
def Reaches (l : Ledger ι) (v : Server ι) : Prop := ∃ ops, Matches (Runs.run step l ops) v

lemma Matches.change (h : Matches l v) {s : ι} {p : Peer} {v' : Server ι}
    (hp : v'.peers = update v.peers s p) (hqueue : v'.queue = v.queue)
    (hq : p.neg.renegotiationQueued = (v.peers s).neg.renegotiationQueued) : Reaches l v' := by
  refine ⟨[.change s p], ?_, hqueue.trans h.queue⟩
  change _ = update l.peers s { p with neg := { p.neg with renegotiationQueued := l.queued s } }
  rw [hp, ← h.peers, queued, ← h.peers, ← hq]

lemma flushPendingOffer_queued (n : SessionNegotiation) (r : Readiness) (now : ℕ) :
    (flushPendingOffer n r now).1.renegotiationQueued = n.renegotiationQueued := by
  have hwait : ∀ n, (offerOrWait n r now).1.renegotiationQueued = n.renegotiationQueued := by
    intro n
    rcases offerOrWait_cases n r now with ⟨heq, -⟩ | heq | ⟨heq, -⟩ <;> rw [heq]
  have hexpire : (expireUnansweredOffer n now).1.renegotiationQueued = n.renegotiationQueued := by
    unfold expireUnansweredOffer
    split <;> rfl
  unfold flushPendingOffer
  split
  · split
    · rename_i heq
      rw [hwait, ← hexpire, heq]
    · rfl
  · exact hwait n

lemma Matches.enqueues (h : Matches l v) (s : ι) (allocated : Bool) {v' : Server ι}
    (hp : v'.peers = (v.enqueueOwned s allocated).1.peers)
    (hq : v'.queue = (v.enqueueOwned s allocated).1.queue) : Reaches l v' :=
  have hm := h.enqueueOwned s allocated
  ⟨[.enqueueOwned s allocated], hp.trans hm.peers, hq.trans hm.queue⟩

lemma Matches.loopStep (h : Matches l v) (op : Op ι) : Reaches l (loopStep v v.loop op) := by
  have hsame : ∀ {v' : Server ι}, v'.peers = v.peers → v'.queue = v.queue → Reaches l v' :=
    fun hp hq => ⟨[], hp.trans h.peers, hq.trans h.queue⟩
  unfold Renegotiation.loopStep
  split
  · refine h.change rfl rfl ?_
    dsimp only [answerLocked]
    split <;> rfl
  · split <;> exact hsame rfl rfl
  · split <;> exact hsame rfl rfl
  · exact hsame rfl rfl
  · exact hsame rfl rfl
  · exact ⟨[.pop], h.pop _ _⟩
  · dsimp only [decideStep]
    split <;> exact h.change rfl rfl (flushPendingOffer_queued _ _ _)
  · exact h.enqueues _ _ rfl rfl
  · dsimp only [sendDoneStep]
    split
    · exact h.change rfl rfl rfl
    · refine h.change rfl rfl ?_
      dsimp only [recordFailed]
      split <;> rfl
  · exact h.enqueues _ _ rfl rfl
  · exact hsame rfl rfl

lemma Matches.step (h : Matches l v) (op : Op ι) : Reaches l (Renegotiation.step v op) := by
  have hloop := h.loopStep op
  cases op with
  | establish | close | setFd => exact h.change rfl rfl rfl
  | schedule s bumpRevision now =>
    dsimp only [Renegotiation.step]
    split
    · refine h.change rfl rfl ?_
      dsimp only [schedulePeerRenegotiation]
      split
      · obtain ⟨first, due, htouch⟩ := touch_eq ((v.peers s).neg.demand bumpRevision) now
        rw [htouch]
        rfl
      · rfl
    · exact ⟨[], h⟩
  | reconcile =>
    dsimp only [Renegotiation.step]
    split
    · exact h.change rfl rfl rfl
    · exact ⟨[], h⟩
  | enqueue =>
    dsimp only [Renegotiation.step, enqueueStep]
    split
    · exact h.enqueues _ _ rfl rfl
    · exact ⟨[], h⟩
  | signal =>
    dsimp only [Renegotiation.step, signalStep]
    split <;> exact ⟨[], h.peers, h.queue⟩
  | _ => exact hloop

/-- **The queue of the running server is owned.** Whatever the threads do, and in whatever order,
the server follows a ledger; a session is in the ring or the fallback list at most once, and its
flag says whether it is. -/
theorem server_queue_owned [Inhabited ι] (ops : List (Op ι)) :
    (∃ qops, Matches (Runs.run step init qops) (run ops)) ∧ (run ops).queue.refs.Nodup ∧
      ∀ s, ((run ops).peers s).neg.renegotiationQueued ↔ s ∈ (run ops).queue.refs := by
  have hinit : Matches (init : Ledger ι) .init := ⟨rfl, rfl⟩
  obtain ⟨qops, hm⟩ := Runs.run_simulates Renegotiation.step (fun _ _ op h => h.step op) hinit ops
  have hown : Owned (Runs.run step init qops) :=
    Runs.run_inv step (fun _ op h => h.step op) owned_init qops
  refine ⟨⟨qops, hm⟩, ?_⟩
  rw [run, hm.queue, refs_map, hm.peers]
  exact ⟨hown.once, hown.queued_iff⟩

end Ledger

end MezonSfu.Renegotiation
