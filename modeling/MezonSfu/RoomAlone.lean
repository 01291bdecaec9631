import MezonSfu.RoomLeave

/-!
The timer of a user that is alone in a room.

When a peer has joined or left, the room counts its distinct users; if there is exactly one, a
deadline is set, unless the same user has one already. A scan claims the deadlines that have
passed. Users, not sessions, are counted: a user may have several sessions.

`since` is history: the only user, and the time of the call after which there was no other.
Between the calls anything about a session may change but its place in the room and its user.
-/

namespace MezonSfu.RoomGraph

open RemoteSlots List

/-- The body of the loop of `room_count_distinct_users_locked`. -/
def addUser (users : List ℤ) (uid : ℤ) : List ℤ := if uid ∈ users then users else users ++ [uid]

def Graph.uniqueUsers (g : Graph) : List ℤ :=
  (List.range g.room.peerCapacity).foldl (fun users i =>
    match g.room.occupied i, g.room.peers i with
    | true, some p => addUser users (g.session p).userId
    | _, _ => users) []

/-- `room_count_distinct_users_locked`, with the sole user if there is one. -/
def Graph.countDistinctUsers (g : Graph) : ℕ × ℤ :=
  (g.uniqueUsers.length, if g.uniqueUsers.length = 1 then g.uniqueUsers.headD 0 else 0)

structure Alone where
  userId : ℤ
  deadlineMs : UInt64
  generation : UInt64
  expiryClaimed : Bool
  deriving DecidableEq

def Alone.init : Alone := ⟨0, 0, 0, false⟩

def Alone.clear (a : Alone) : Alone := ⟨0, 0, a.generation + 1, false⟩

/-- A deadline that does not wrap. -/
def deadlineAt (nowMs timeoutMs : UInt64) : UInt64 :=
  if nowMs + timeoutMs < nowMs then 0xffffffffffffffff else nowMs + timeoutMs

/-- `room_update_alone_state_locked`, given the count; the flag says whether anything changed. -/
def Alone.update (a : Alone) (count : ℕ × ℤ) (timeoutMs nowMs : UInt64) : Alone × Bool :=
  if timeoutMs = 0 then
    if a.deadlineMs ≠ 0 ∨ a.userId ≠ 0 then (a.clear, true) else (a, false)
  else if count.1 = 1 then
    if a.userId = count.2 ∧ a.deadlineMs ≠ 0 then (a, false)
    else (⟨count.2, deadlineAt nowMs timeoutMs, a.generation + 1, false⟩, true)
  else if a.deadlineMs ≠ 0 ∨ a.userId ≠ 0 then (a.clear, true)
  else (a, false)

/-- What a scan has found so far: the users to disconnect, with their rooms, and the earliest
deadline that has not passed, zero if none. -/
structure Scan where
  kicks : List (ℕ × ℤ)
  earliestFutureDeadlineMs : UInt64

/-- One room of `sfu_signaling_scan_alone_rooms_at`. -/
def Alone.scan (a : Alone) (roomId : ℕ) (count : ℕ × ℤ) (nowMs : UInt64) (s : Scan) :
    Alone × Scan :=
  if a.deadlineMs = 0 ∨ a.expiryClaimed then (a, s)
  else if count.1 ≠ 1 ∨ count.2 ≠ a.userId then (a.clear, s)
  else if a.deadlineMs ≤ nowMs then
    ({ a with expiryClaimed := true }, { s with kicks := s.kicks ++ [(roomId, count.2)] })
  else
    (a, if s.earliestFutureDeadlineMs = 0 ∨ a.deadlineMs < s.earliestFutureDeadlineMs then
      { s with earliestFutureDeadlineMs := a.deadlineMs } else s)

/-! ### Runs -/

def Graph.Sole (g : Graph) (u : ℤ) : Prop :=
  (∃ p, g.Member p) ∧ ∀ p, g.Member p → (g.session p).userId = u

def Graph.soleUser (g : Graph) : Option ℤ :=
  match g.members.map fun p => (g.session p).userId with
  | [] => none
  | u :: us => if us.all (· = u) then some u else none

structure AloneRoom where
  graph : Graph
  alone : Alone
  since : Option (ℤ × UInt64)

inductive AloneOp where
  | addPeer (peer : SessionId) (o : AddOutcome) (nowMs : UInt64)
  | removePeer (peer : SessionId) (o : RemoveOutcome) (nowMs : UInt64)
  | scan (s : Scan) (nowMs : UInt64)
  | change (peer : SessionId) (s : Session)

/-- A user stays the only one since the same time. -/
def renew (since : Option (ℤ × UInt64)) (sole : Option ℤ) (nowMs : UInt64) : Option (ℤ × UInt64) :=
  if since.map Prod.fst = sole then since else sole.map fun u => (u, nowMs)

namespace AloneRoom

/-- `sfu_room_init`, and sessions that are in no room. -/
def init (roomId : ℕ) (session : SessionId → Session) (queue : MembershipQueue) : AloneRoom :=
  ⟨⟨.init roomId, fun p => { session p with room := none, roomSlot := noRoomSlot }, queue⟩,
    .init, none⟩

/-- The members are now those of `g`. -/
def settle (w : AloneRoom) (g : Graph) (timeoutMs nowMs : UInt64) : AloneRoom :=
  ⟨g, (w.alone.update g.countDistinctUsers timeoutMs nowMs).1, renew w.since g.soleUser nowMs⟩

/-- The removal of `peer` finds it in its seat. -/
def leaves (g : Graph) (peer : SessionId) : Bool :=
  (g.session peer).room = some g.room.roomId ∧ (g.session peer).roomSlot < g.room.peerCapacity ∧
    g.room.occupied (g.session peer).roomSlot = true ∧
    g.room.peers (g.session peer).roomSlot = some peer

def step (timeoutMs : UInt64) (w : AloneRoom) : AloneOp → AloneRoom
  | .addPeer peer o nowMs =>
    let (g, result) := w.graph.addPeerResult peer o
    if result = .ok then w.settle g timeoutMs nowMs else { w with graph := g }
  | .removePeer peer o nowMs =>
    let g := w.graph.removePeer peer o
    if leaves w.graph peer then w.settle g timeoutMs nowMs else { w with graph := g }
  | .scan s nowMs =>
    { w with
      alone := (w.alone.scan w.graph.room.roomId w.graph.countDistinctUsers nowMs s).1 }
  | .change peer s =>
    { w with graph := w.graph.modify peer fun old =>
        { s with room := old.room, roomSlot := old.roomSlot, userId := old.userId } }

end AloneRoom

/-! ### What joining and leaving does to the seats -/

section Seats

variable {g h : Graph} {peer : SessionId}

/-- The graphs have the same room, and their sessions the same seats and users. -/
structure SameSeats (g h : Graph) : Prop where
  room : h.room = g.room
  session : ∀ q, (h.session q).room = (g.session q).room ∧
    (h.session q).roomSlot = (g.session q).roomSlot ∧
    (h.session q).userId = (g.session q).userId

lemma SameSeats.refl (g : Graph) : SameSeats g g := ⟨rfl, fun _ => ⟨rfl, rfl, rfl⟩⟩

lemma OnlySlots.sameSeats (hs : OnlySlots g h) : SameSeats g h :=
  ⟨hs.room, fun _ =>
    ⟨hs.field Session.room, hs.field Session.roomSlot, hs.field Session.userId⟩⟩

lemma SameSeats.member_iff (hs : SameSeats g h) (p : SessionId) : h.Member p ↔ g.Member p := by
  unfold Graph.Member
  rw [(hs.session p).1, hs.room]

lemma SameSeats.seated (hs : SameSeats g h) (hg : Seated g) : Seated h :=
  hg.of_same hs.room hs.member_iff fun p => (hs.session p).2.1

lemma SameSeats.modify (hs : SameSeats g h) {f : Session → Session}
    (hf : ∀ s, (f s).room = s.room ∧ (f s).roomSlot = s.roomSlot ∧ (f s).userId = s.userId) :
    SameSeats g (h.modify peer f) := by
  refine ⟨hs.room, fun q => ?_⟩
  rw [modify_field Session.room fun s => (hf s).1,
    modify_field Session.roomSlot fun s => (hf s).2.1,
    modify_field Session.userId fun s => (hf s).2.2]
  exact hs.session q

lemma SameSeats.relinked (hs : SameSeats g h) {p q : SessionId} {snap : Option ReceiverSnapshot}
    {bundle : Option FanoutBundle} :
    SameSeats g ((h.snapshotReplace p snap).fanoutReplace q bundle) := by
  refine (hs.modify ?_).modify ?_ <;> exact fun _ => ⟨rfl, rfl, rfl⟩

lemma SameSeats.foldl_publish (hs : SameSeats g h) (ps : List Prepared) :
    SameSeats g (ps.foldl Graph.publish h) :=
  foldlRecOn ps _ hs fun _ hs _ _ => hs.relinked

lemma SameSeats.foldl_detach (hs : SameSeats g h) (o : RemoveOutcome) (os : List SessionId) :
    SameSeats g (os.foldl (Graph.detach peer o) h) := by
  refine foldlRecOn os _ hs fun h hs other _ => ?_
  unfold Graph.detach
  generalize h.snapshotBuildWithout other peer (o.receivers other) = built
  obtain ⟨_ | r, snap⟩ := built
  · exact hs.relinked
  · refine hs.relinked.modify ?_
    exact fun _ => ⟨rfl, rfl, rfl⟩

/-- **Joining**: the peer takes a seat, or nothing about the seats changes. -/
lemma addPeerResult_seats (g : Graph) (peer : SessionId) (o : AddOutcome) :
    let r := g.addPeerResult peer o
    (r.2 ≠ .ok ∧ SameSeats g r.1) ∨
    ∃ slot rest, r.2 = .ok ∧ ¬ g.Member peer ∧
      g.room.freeSlots = slot :: rest ∧ TookSeat g r.1 peer slot := by
  dsimp only
  rcases addPeerResult_cases g peer o with ⟨heq, hne⟩ | ⟨-, hne, heq⟩ |
    ⟨slot, rest, h, rs, links, receivers, fanout, ps, queue, hroom, hfree, hres, -, heq⟩
  · rw [heq]
    exact .inl ⟨hne, .refl g⟩
  · rw [heq]
    exact .inl ⟨hne, ((onlySlots_reserveLinks _).trans (onlySlots_undo _)).sameSeats⟩
  · have honly : OnlySlots g h := by
      have hlinks : OnlySlots g (Graph.reserveLinks peer g (g.targets peer)).1 :=
        onlySlots_reserveLinks _
      rwa [hres] at hlinks
    have hseats := honly.sameSeats.foldl_publish ps
    refine .inr ⟨slot, rest, by rw [heq], ?_, hfree, ?_⟩
    · unfold Graph.Member
      rw [hroom]
      exact nofun
    rw [heq]
    unfold Graph.commitPeer
    constructor
    · dsimp only
      rw [modify_room, hseats.room]
    · rw [modify_self, honly.room]
    · rw [modify_self]
    · intro q hq
      rw [modify_of_ne hq]
      exact ⟨(hseats.session q).1, (hseats.session q).2.1⟩

/-- **Leaving**: a member gives its seat back. -/
lemma removePeer_leftSeat (hl : AloneRoom.leaves g peer) (o : RemoveOutcome) :
    LeftSeat g (g.removePeer peer o) peer := by
  obtain ⟨hroom, hlt, hocc, hseat⟩ := of_decide_eq_true hl
  have hin : ¬ (g.room.peerCapacity ≤ (g.session peer).roomSlot ∨
      g.room.occupied (g.session peer).roomSlot = false ∨
      g.room.peers (g.session peer).roomSlot ≠ some peer) := by
    rintro (hle | hfree | hother)
    · omega
    · rw [hocc] at hfree
      cases hfree
    · exact hother hseat
  unfold Graph.removePeer
  rw [if_pos hroom, if_neg hin]
  have hseats : ∀ g' os, SameSeats g' (foldl (Graph.detach peer o) g' os) :=
    fun g' => (SameSeats.refl g').foldl_detach o
  constructor
  · rw [modify_room, (hseats _ _).room]
  · rw [modify_self]
    rfl
  · intro q hq
    rw [modify_of_ne hq]
    exact ⟨((hseats _ _).session q).1, ((hseats _ _).session q).2.1⟩

lemma leaves_iff (hg : Seated g) : AloneRoom.leaves g peer ↔ g.Member peer := by
  unfold AloneRoom.leaves
  rw [decide_eq_true_eq]
  refine ⟨And.left, fun hm => ⟨hm, ?_, ?_, ?_⟩⟩
  · rw [hg.capacity]
    exact hg.roomSlot_lt hm
  · rw [hg.occupied, (hg.peers _ peer).2 ⟨hm, rfl⟩]
    rfl
  · exact (hg.peers _ peer).2 ⟨hm, rfl⟩

lemma removePeer_outside (hm : ¬ g.Member peer) (o : RemoveOutcome) : g.removePeer peer o = g := by
  exact if_neg hm

end Seats

section Count

variable {g : Graph}

lemma foldl_addUser (us acc : List ℤ) (hnd : acc.Nodup) :
    (us.foldl addUser acc).Nodup ∧ ∀ u, u ∈ us.foldl addUser acc ↔ u ∈ acc ∨ u ∈ us := by
  induction us generalizing acc with
  | nil => exact ⟨hnd, fun u => by simp⟩
  | cons v us ih =>
    have hone : (addUser acc v).Nodup ∧ ∀ u, u ∈ addUser acc v ↔ u ∈ acc ∨ u = v := by
      unfold addUser
      split
      · rename_i hv
        refine ⟨hnd, fun u => ⟨.inl, fun h => h.elim id fun huv => huv ▸ hv⟩⟩
      rename_i hv
      refine ⟨nodup_append.2 ⟨hnd, nodup_singleton v, ?_⟩, fun u => by simp⟩
      rintro a ha b hb rfl
      rw [mem_singleton.1 hb] at ha
      exact hv ha
    obtain ⟨hnodup, hmem⟩ := ih (addUser acc v) hone.1
    refine ⟨hnodup, fun u => ?_⟩
    rw [foldl_cons, hmem, hone.2, mem_cons, or_assoc]

lemma Seated.uniqueUsers_eq (hg : Seated g) :
    g.uniqueUsers = (g.members.map fun p => (g.session p).userId).foldl addUser [] := by
  unfold Graph.uniqueUsers Graph.members
  rw [foldl_map, foldl_filterMap]
  congr 1
  funext users i
  rw [hg.occupied]
  cases g.room.peers i <;> rfl

lemma Seated.mem_uniqueUsers (hg : Seated g) (u : ℤ) :
    u ∈ g.uniqueUsers ↔ ∃ p, g.Member p ∧ (g.session p).userId = u := by
  rw [hg.uniqueUsers_eq, (foldl_addUser _ [] .nil).2, mem_map]
  simp only [not_mem_nil, false_or, hg.mem_members]

lemma Seated.sole_iff (hg : Seated g) (u : ℤ) : g.Sole u ↔ g.uniqueUsers = [u] := by
  have hnd : g.uniqueUsers.Nodup := by
    rw [hg.uniqueUsers_eq]
    exact (foldl_addUser _ [] .nil).1
  have hmem := hg.mem_uniqueUsers
  constructor
  · rintro ⟨⟨p, hp⟩, hall⟩
    refine perm_singleton.1 ((perm_ext_iff_of_nodup hnd (nodup_singleton u)).2 fun v => ?_)
    rw [hmem, mem_singleton]
    constructor
    · rintro ⟨q, hq, rfl⟩
      exact hall q hq
    · rintro rfl
      exact ⟨p, hp, hall p hp⟩
  · intro heq
    rw [heq] at hmem
    obtain ⟨p, hp, -⟩ := (hmem u).1 (mem_singleton_self u)
    refine ⟨⟨p, hp⟩, fun q hq => ?_⟩
    exact mem_singleton.1 ((hmem _).2 ⟨q, hq, rfl⟩)

lemma Seated.soleUser_iff (hg : Seated g) (u : ℤ) : g.soleUser = some u ↔ g.Sole u := by
  have hsole : g.Sole u ↔ (∃ v, v ∈ g.members.map fun p => (g.session p).userId) ∧
      ∀ v ∈ g.members.map fun p => (g.session p).userId, v = u := by
    simp only [mem_map, hg.mem_members]
    constructor
    · rintro ⟨⟨p, hp⟩, hall⟩
      exact ⟨⟨_, p, hp, rfl⟩, fun v ⟨q, hq, hv⟩ => hv ▸ hall q hq⟩
    · rintro ⟨⟨v, p, hp, -⟩, hall⟩
      exact ⟨⟨p, hp⟩, fun q hq => hall _ ⟨q, hq, rfl⟩⟩
  rw [hsole]
  unfold Graph.soleUser
  cases g.members.map fun p => (g.session p).userId with
  | nil => simp
  | cons v vs =>
    simp only [all_eq_true, decide_eq_true_eq, Option.ite_none_right_eq_some,
      Option.some.injEq, mem_cons, forall_eq_or_imp]
    constructor
    · rintro ⟨hall, rfl⟩
      exact ⟨⟨v, .inl rfl⟩, rfl, hall⟩
    · rintro ⟨-, rfl, hall⟩
      exact ⟨hall, rfl⟩

/-- **The count is one exactly for a sole user**, whom it names. -/
lemma Seated.count_cases (hg : Seated g) :
    (∃ u, g.soleUser = some u ∧ g.countDistinctUsers = (1, u)) ∨
      (g.soleUser = none ∧ g.countDistinctUsers.1 ≠ 1) := by
  cases hs : g.soleUser with
  | some u =>
    have heq := (hg.sole_iff u).1 ((hg.soleUser_iff u).1 hs)
    refine .inl ⟨u, rfl, ?_⟩
    unfold Graph.countDistinctUsers
    rw [heq]
    rfl
  | none =>
    refine .inr ⟨rfl, fun hone => ?_⟩
    obtain ⟨u, hu⟩ := length_eq_one_iff.1 hone
    have := (hg.soleUser_iff u).2 ((hg.sole_iff u).2 hu)
    rw [hs] at this
    cases this

lemma SameSeats.soleUser_eq {h : Graph} (hs : SameSeats g h) : h.soleUser = g.soleUser := by
  have husers : (h.members.map fun p => (h.session p).userId) =
      g.members.map fun p => (g.session p).userId := by
    unfold Graph.members
    rw [hs.room]
    exact map_congr_left fun p _ => (hs.session p).2.2
  unfold Graph.soleUser
  rw [husers]

end Count

/-! ### The timer along a run -/

section Timer

lemma deadlineAt_toNat (nowMs timeoutMs : UInt64) :
    (deadlineAt nowMs timeoutMs).toNat = min (nowMs.toNat + timeoutMs.toNat) (2 ^ 64 - 1) := by
  have h2 := timeoutMs.toNat_lt
  unfold deadlineAt
  split
  · rename_i hwraps
    rw [UInt64.lt_iff_toNat_lt, UInt64.toNat_add] at hwraps
    change 2 ^ 64 - 1 = _
    omega
  · rename_i hfits
    rw [UInt64.lt_iff_toNat_lt, UInt64.toNat_add] at hfits
    rw [UInt64.toNat_add]
    omega

lemma deadlineAt_ne_zero (nowMs : UInt64) {timeoutMs : UInt64} (h : timeoutMs ≠ 0) :
    deadlineAt nowMs timeoutMs ≠ 0 := by
  have hpos : timeoutMs.toNat ≠ 0 := fun h0 => h (UInt64.toNat_inj.1 h0)
  intro heq
  have hnat := deadlineAt_toNat nowMs timeoutMs
  rw [heq] at hnat
  change 0 = _ at hnat
  omega

structure TimerOk (timeoutMs : UInt64) (a : Alone) (since : Option (ℤ × UInt64))
    (sole : Option ℤ) : Prop where
  since_eq : since.map Prod.fst = sole
  idle : timeoutMs = 0 ∨ sole = none → a.deadlineMs = 0 ∧ a.userId = 0
  armed : ∀ u t, since = some (u, t) → timeoutMs ≠ 0 →
    a.userId = u ∧ a.deadlineMs = deadlineAt t timeoutMs

variable {timeoutMs nowMs : UInt64} {a : Alone} {since : Option (ℤ × UInt64)}
  {sole sole' : Option ℤ} {count : ℕ × ℤ}

lemma map_renew (nowMs : UInt64) : (renew since sole' nowMs).map Prod.fst = sole' := by
  unfold renew
  split
  · assumption
  · cases sole' <;> rfl

/-- **The update after a join or a leave** fits the timer to the new members. -/
lemma TimerOk.update (h : TimerOk timeoutMs a since sole)
    (hcount : (∃ u, sole' = some u ∧ count = (1, u)) ∨ (sole' = none ∧ count.1 ≠ 1)) :
    TimerOk timeoutMs (a.update count timeoutMs nowMs).1 (renew since sole' nowMs) sole' := by
  -- without a sole user the timer is cleared, or was
  have hcleared : ∀ b : Alone, b = (if a.deadlineMs ≠ 0 ∨ a.userId ≠ 0 then (a.clear, true)
      else (a, false)).1 → b.deadlineMs = 0 ∧ b.userId = 0 := by
    rintro b rfl
    split
    · exact ⟨rfl, rfl⟩
    · rename_i hzero
      exact ⟨not_not.1 (not_or.1 hzero).1, not_not.1 (not_or.1 hzero).2⟩
  refine ⟨map_renew nowMs, ?_, ?_⟩
  · intro hidle
    unfold Alone.update
    by_cases ht : timeoutMs = 0
    · rw [if_pos ht]
      exact hcleared _ rfl
    rw [if_neg ht]
    rcases hcount with ⟨u, hu, -⟩ | ⟨-, hne⟩
    · rw [hidle.resolve_left ht] at hu
      cases hu
    · rw [if_neg hne]
      exact hcleared _ rfl
  · intro u t hsince ht
    have hmap : (renew since sole' nowMs).map Prod.fst = sole' := map_renew nowMs
    rw [hsince, Option.map_some] at hmap
    rcases hcount with ⟨v, hv, hone⟩ | ⟨hnone, -⟩
    · obtain rfl : u = v := by
        rw [hv] at hmap
        exact Option.some.inj hmap
      unfold Alone.update
      rw [if_neg ht, hone, if_pos rfl]
      by_cases hkeep : since.map Prod.fst = sole'
      · -- the same user: the deadline is the old one
        unfold renew at hsince
        rw [if_pos hkeep] at hsince
        obtain ⟨huser, hdeadline⟩ := h.armed u t hsince ht
        rw [if_pos ⟨huser, hdeadline ▸ deadlineAt_ne_zero t ht⟩]
        exact ⟨huser, hdeadline⟩
      · -- another user, or none before: the timer was not theirs
        have hnot : ¬ (a.userId = (1, u).2 ∧ a.deadlineMs ≠ 0) := by
          rintro ⟨huser, hdeadline⟩
          cases hs : since with
          | none =>
            refine hdeadline (h.idle (.inr ?_)).1
            rw [← h.since_eq, hs]
            rfl
          | some p =>
            obtain ⟨w, t'⟩ := p
            rw [hs, Option.map_some, hv] at hkeep
            exact hkeep (congrArg some ((h.armed w t' hs ht).1.symm.trans huser))
        rw [if_neg hnot]
        unfold renew at hsince
        rw [if_neg hkeep, hv, Option.map_some, Option.some.injEq, Prod.mk.injEq] at hsince
        rw [hsince.2]
        exact ⟨rfl, rfl⟩
    · rw [hnone] at hmap
      cases hmap

lemma TimerOk.scan (h : TimerOk timeoutMs a since sole)
    (hcount : (∃ u, sole = some u ∧ count = (1, u)) ∨ (sole = none ∧ count.1 ≠ 1))
    (roomId : ℕ) (s : Scan) : TimerOk timeoutMs (a.scan roomId count nowMs s).1 since sole := by
  unfold Alone.scan
  by_cases hskip : a.deadlineMs = 0 ∨ a.expiryClaimed
  · rw [if_pos hskip]
    exact h
  rw [if_neg hskip]
  have hdeadline := (not_or.1 hskip).1
  have ht : timeoutMs ≠ 0 := fun h0 => hdeadline (h.idle (.inl h0)).1
  have hfits : ¬ (count.1 ≠ 1 ∨ count.2 ≠ a.userId) := by
    rcases hcount with ⟨u, hu, hone⟩ | ⟨hnone, -⟩
    · have hmap := h.since_eq
      rw [hu] at hmap
      obtain ⟨⟨v, t⟩, hs, rfl⟩ := Option.map_eq_some_iff.1 hmap
      rw [hone, (h.armed v t hs ht).1]
      simp
    · exact absurd (h.idle (.inr hnone)).1 hdeadline
  rw [if_neg hfits]
  split
  · exact { h with }
  · exact h

end Timer

namespace AloneRoom

/-- The seats are in order, and the timer fits the members. -/
structure Kept (timeoutMs : UInt64) (w : AloneRoom) : Prop where
  seated : Seated w.graph
  timer : TimerOk timeoutMs w.alone w.since w.graph.soleUser

variable {timeoutMs : UInt64} {w : AloneRoom}

lemma kept_init (roomId : ℕ) (session : SessionId → Session) (queue : MembershipQueue) :
    Kept timeoutMs (init roomId session queue) := by
  refine ⟨seated_init ⟨roomId, rfl⟩ fun _ => rfl, rfl, fun _ => ⟨rfl, rfl⟩, nofun⟩

/-- What a step does: members join or leave, or nothing about them changes. -/
inductive Moves (timeoutMs : UInt64) (w : AloneRoom) : AloneRoom → Prop
  | settled {g : Graph} (nowMs : UInt64) (hg : Seated g) :
      Moves timeoutMs w (w.settle g timeoutMs nowMs)
  | same {g : Graph} {a : Alone} (hs : SameSeats w.graph g)
      (ha : TimerOk timeoutMs a w.since w.graph.soleUser) : Moves timeoutMs w ⟨g, a, w.since⟩

lemma Kept.moves (h : Kept timeoutMs w) (op : AloneOp) :
    Moves timeoutMs w (w.step timeoutMs op) := by
  cases op with
  | addPeer peer o nowMs =>
    unfold AloneRoom.step
    dsimp only
    rcases addPeerResult_seats w.graph peer o with
      ⟨hne, hs⟩ | ⟨slot, rest, hok, hnew, hfree, htook⟩
    · rw [if_neg hne]
      exact .same hs h.timer
    · rw [if_pos hok]
      exact .settled nowMs (htook.seated h.seated hnew hfree)
  | removePeer peer o nowMs =>
    unfold AloneRoom.step
    dsimp only
    by_cases hl : leaves w.graph peer
    · rw [if_pos hl]
      exact .settled nowMs ((removePeer_leftSeat hl o).seated h.seated ((leaves_iff h.seated).1 hl))
    · rw [if_neg hl, removePeer_outside (mt (leaves_iff h.seated).2 hl)]
      exact .same (.refl _) h.timer
  | scan s nowMs => exact .same (.refl _) (h.timer.scan h.seated.count_cases _ s)
  | change peer s =>
    refine .same ⟨rfl, fun q => ?_⟩ h.timer
    by_cases hq : q = peer
    · rw [hq, modify_self]
      exact ⟨rfl, rfl, rfl⟩
    · rw [modify_of_ne hq]
      exact ⟨rfl, rfl, rfl⟩

lemma Kept.step (h : Kept timeoutMs w) (op : AloneOp) : Kept timeoutMs (w.step timeoutMs op) := by
  have hmoves := h.moves op
  generalize w.step timeoutMs op = w' at hmoves ⊢
  cases hmoves with
  | settled nowMs hg => exact ⟨hg, h.timer.update hg.count_cases⟩
  | same hs ha =>
    refine ⟨hs.seated h.seated, ?_⟩
    rw [hs.soleUser_eq]
    exact ha

/-- The free stack holds each free slot once, the counts add up to the capacity, and a member is
in the seat it knows. The timer runs exactly while there is one user, for that user, until
`timeoutMs` after the call that left no other. -/
structure Timed (timeoutMs : UInt64) (w : AloneRoom) : Prop where
  seated : Seated w.graph
  deadline_iff : w.alone.deadlineMs ≠ 0 ↔ timeoutMs ≠ 0 ∧ ∃ u, w.graph.Sole u
  sole : ∀ u, w.graph.Sole u → ∃ t, w.since = some (u, t) ∧ (timeoutMs ≠ 0 → w.alone.userId = u ∧
    w.alone.deadlineMs.toNat = min (t.toNat + timeoutMs.toNat) (2 ^ 64 - 1))

lemma Kept.since_of_sole (h : Kept timeoutMs w) {u : ℤ} (hu : w.graph.Sole u) :
    ∃ t, w.since = some (u, t) := by
  have hmap := h.timer.since_eq
  rw [(h.seated.soleUser_iff u).2 hu] at hmap
  obtain ⟨⟨v, t⟩, hs, rfl⟩ := Option.map_eq_some_iff.1 hmap
  exact ⟨t, hs⟩

lemma Kept.timed (h : Kept timeoutMs w) : Timed timeoutMs w := by
  refine ⟨h.seated, ⟨fun hd => ?_, ?_⟩, fun u hu => ?_⟩
  · refine ⟨fun ht => hd (h.timer.idle (.inl ht)).1, ?_⟩
    cases hs : w.graph.soleUser with
    | none => exact absurd (h.timer.idle (.inr hs)).1 hd
    | some u => exact ⟨u, (h.seated.soleUser_iff u).1 hs⟩
  · rintro ⟨ht, u, hu⟩
    obtain ⟨t, hs⟩ := h.since_of_sole hu
    rw [(h.timer.armed u t hs ht).2]
    exact deadlineAt_ne_zero t ht
  · obtain ⟨t, hs⟩ := h.since_of_sole hu
    refine ⟨t, hs, fun ht => ?_⟩
    obtain ⟨huser, hdeadline⟩ := h.timer.armed u t hs ht
    exact ⟨huser, by rw [hdeadline, deadlineAt_toNat]⟩

/-- **The deadline of a user that stays alone is not moved.** -/
lemma Kept.deadline_kept (h : Kept timeoutMs w) (op : AloneOp) {u : ℤ} (hu : w.graph.Sole u)
    (hu' : (w.step timeoutMs op).graph.Sole u) :
    (w.step timeoutMs op).since = w.since ∧
      (w.step timeoutMs op).alone.deadlineMs = w.alone.deadlineMs := by
  have hkept := h.step op
  have hsole := (h.seated.soleUser_iff u).2 hu
  have hsole' := (hkept.seated.soleUser_iff u).2 hu'
  have hsince : (w.step timeoutMs op).since = w.since := by
    have hmoves := h.moves op
    generalize w.step timeoutMs op = w' at hmoves hsole' ⊢
    cases hmoves with
    | @settled g nowMs hg =>
      change g.soleUser = some u at hsole'
      change renew w.since g.soleUser nowMs = w.since
      rw [hsole', ← hsole]
      exact if_pos h.timer.since_eq
    | same hs ha => rfl
  refine ⟨hsince, ?_⟩
  by_cases ht : timeoutMs = 0
  · rw [(hkept.timer.idle (.inl ht)).1, (h.timer.idle (.inl ht)).1]
  · obtain ⟨t, hs⟩ := h.since_of_sole hu
    rw [(hkept.timer.armed u t (hsince.trans hs) ht).2, (h.timer.armed u t hs ht).2]

/-- Along every run of joins, leaves and scans, the seats are in order and the timer runs for the
only user, from the call that made them the only one; as long as they stay that, no call moves the
deadline. -/
theorem alone_timer_kept (timeoutMs : UInt64) (roomId : ℕ) (session : SessionId → Session)
    (queue : MembershipQueue) (ops : List AloneOp) :
    let w := Runs.run (step timeoutMs) (init roomId session queue) ops
    Timed timeoutMs w ∧ ∀ op u, w.graph.Sole u → (step timeoutMs w op).graph.Sole u →
      (step timeoutMs w op).since = w.since ∧
        (step timeoutMs w op).alone.deadlineMs = w.alone.deadlineMs := by
  intro w
  have h : Kept timeoutMs w := Runs.run_inv (step timeoutMs) (I := Kept timeoutMs)
    (fun _ op hk => hk.step op) (kept_init roomId session queue) ops
  exact ⟨h.timed, fun op _ hu hu' => h.deadline_kept op hu hu'⟩

end AloneRoom

end MezonSfu.RoomGraph
