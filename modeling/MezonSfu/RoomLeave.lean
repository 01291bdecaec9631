import MezonSfu.RoomRefresh

/-!
A removal keeps the room coherent.

Every remaining member loses its entry for the peer, the slot of that entry and its route to the
peer, and nothing else; the peer loses all of its own.
-/

namespace MezonSfu.RoomGraph

open RemoteSlots Function List Option

/-- A session without what links it to `peer`. -/
def Session.part (peer : SessionId) (s : Session) : Session :=
  { s with
    receivers := s.receivers.remove ReceiverEntry.subscriber peer
    fanoutBundle := s.fanoutBundle.remove FanoutRoute.subscriber peer
    remoteSlots := match (snapshotFind s.receivers peer).bind s.receivers.cells with
      | none => s.remoteSlots
      | some e => (remoteSlotRetire s.remoteSlots e.remoteSlot e.assignmentGeneration).1 }

lemma copySet_found {V : Type} {key : V → SessionId} {m : SlotMap maxRemoteSlots V} {k : SessionId}
    {i : ℕ} (h : m.find key k = some i) : copySet m i none true = some (m.remove key k) := by
  unfold copySet SlotMap.remove
  rw [if_pos ⟨(SlotMap.find_spec h).1, rfl⟩, h]

lemma remove_of_find_none {V : Type} {key : V → SessionId} {m : SlotMap maxRemoteSlots V}
    {k : SessionId} (h : m.find key k = none) : m.remove key k = m := by
  unfold SlotMap.remove
  rw [h]

lemma detach_eq (g : Graph) (peer other : SessionId) :
    Graph.detach peer .well g other = g.modify other (Session.part peer) := by
  have hbundle : ∀ h : Graph, h.fanoutReplace other (h.fanoutRemove other peer true) =
      h.modify other fun s =>
        { s with fanoutBundle := s.fanoutBundle.remove FanoutRoute.subscriber peer } := by
    intro h
    unfold Graph.fanoutReplace Graph.fanoutRemove Graph.modify
    dsimp only
    cases hf : bundleFind (h.session other).fanoutBundle peer with
    | none => rw [remove_of_find_none hf, bind_none, getD_none]
    | some i => rw [bind_some, copySet_found hf, getD_some]
  unfold Graph.detach
  dsimp only [RemoveOutcome.well]
  rw [hbundle]
  unfold Graph.snapshotBuildWithout
  dsimp only
  cases hf : snapshotFind (g.session other).receivers peer with
  | none =>
    unfold Graph.snapshotReplace Graph.modify Session.part
    rw [hf]
    simp [remove_of_find_none hf]
  | some i =>
    obtain ⟨-, e, he, -⟩ := SlotMap.find_spec hf
    dsimp only
    rw [he, copySet_found hf]
    unfold Graph.retireSlot Graph.snapshotReplace Graph.modify Session.part
    rw [hf, bind_some, he]
    simp

lemma foldl_detach (peer : SessionId) {os : List SessionId} (hnd : os.Nodup) (g : Graph) :
    let g' := os.foldl (Graph.detach peer .well) g
    g'.room = g.room ∧ g'.queue = g.queue ∧
      ∀ q, g'.session q = if q ∈ os then (g.session q).part peer else g.session q := by
  induction os generalizing g with
  | nil => exact ⟨rfl, rfl, fun _ => rfl⟩
  | cons other os ih =>
    rw [nodup_cons] at hnd
    obtain ⟨hroom, hqueue, hsession⟩ := ih hnd.2 (Graph.detach peer .well g other)
    rw [foldl_cons]
    rw [detach_eq] at hroom hqueue hsession ⊢
    refine ⟨hroom, hqueue, ?_⟩
    intro q
    rw [hsession]
    by_cases hq : q = other
    · rw [hq, if_neg hnd.1, if_pos (.head _), modify_self]
    · rw [modify_of_ne hq]
      simp [hq]

section

variable {g : Graph} {peer q : SessionId}

lemma Coherent.table_part (hg : Coherent g) (hq : g.Member q) :
    ((g.session q).part peer).remoteSlots.assigned = tags ((g.session q).part peer).receivers := by
  have htable := hg.table q hq
  unfold Session.part
  cases hf : snapshotFind (g.session q).receivers peer with
  | none =>
    rw [remove_of_find_none hf]
    exact htable
  | some i =>
    obtain ⟨hlt, e, he, -⟩ := SlotMap.find_spec hf
    have hok := (hg.linked q hq).entry i e he
    have htag : (g.session q).remoteSlots.assigned i =
        some (e.publisherUserId, e.publisherPeerId, e.assignmentGeneration) := by
      rw [htable, tags, he]
      rfl
    rw [bind_some, he]
    dsimp only
    rw [hok.slot, assigned_retire hlt hok.generation htag, htable]
    unfold SlotMap.remove
    rw [show (g.session q).receivers.find ReceiverEntry.subscriber peer = some i from hf]
    funext j
    unfold tags SlotMap.copySet
    by_cases hj : j = i
    · rw [hj]
      simp
    · simp [hj]

end

lemma assigned_retireEntries {snap : ReceiverSnapshot} {t : SlotTable}
    (hwf : snap.WF ReceiverEntry.subscriber)
    (hentry : ∀ i e, snap.cells i = some e → e.remoteSlot = i ∧ e.assignmentGeneration ≠ 0)
    (htable : t.assigned = tags snap) : (retireEntries snap t).assigned = fun _ => none := by
  -- a slot that is retired stays so, and the others are untouched until their turn
  have hfold : ∀ (is : List ℕ) (t : SlotTable), is.Nodup → (∀ i ∈ is, i < maxRemoteSlots) →
      (∀ i ∈ is, t.assigned i = tags snap i) →
      (is.foldl (fun t i => match snap.cells i with
        | none => t
        | some e => (remoteSlotRetire t e.remoteSlot e.assignmentGeneration).1) t).assigned =
        fun i => if i ∈ is then none else t.assigned i := by
    intro is
    induction is with
    | nil =>
      intro t _ _ _
      rfl
    | cons i is ih =>
      intro t hnd hlt htags
      rw [nodup_cons] at hnd
      have hi := htags i (.head _)
      have hstep : (match snap.cells i with
          | none => t
          | some e => (remoteSlotRetire t e.remoteSlot e.assignmentGeneration).1).assigned =
          update t.assigned i none := by
        cases he : snap.cells i with
        | none =>
          have hnone : t.assigned i = none := by rw [hi, tags, he]; rfl
          rw [← hnone, update_eq_self]
        | some e =>
          obtain ⟨hslot, hgen⟩ := hentry i e he
          dsimp only
          rw [hslot]
          apply assigned_retire (hlt i (.head _)) hgen
          rw [hi, tags, he]
          rfl
      rw [foldl_cons, ih _ hnd.2 (fun j hj => hlt j (.tail _ hj)), hstep]
      · funext j
        by_cases hj : j = i
        · simp [hj]
        · simp [hj]
      · intro j hj
        have hne : j ≠ i := fun heq => hnd.1 (heq ▸ hj)
        rw [hstep, update_of_ne hne]
        exact htags j (.tail _ hj)
  refine (hfold _ t nodup_range (fun i hi => mem_range.1 hi) fun i _ => by rw [htable]).trans ?_
  funext i
  split_ifs with hi
  · rfl
  · rw [htable, tags]
    cases he : snap.cells i with
    | none => rfl
    | some e => exact absurd (mem_range.2 (hwf.lt i e he)) hi

lemma Coherent.detached_leave {g : Graph} (hg : Coherent g) {peer : SessionId}
    (hpeer : g.Member peer) : Detached (g.session peer).leave := by
  have hl := hg.linked peer hpeer
  refine ⟨rfl, rfl, ?_⟩
  unfold Session.leave
  dsimp only
  exact assigned_retireEntries hl.receivers
    (fun i e he => ⟨(hl.entry i e he).slot, (hl.entry i e he).generation⟩) (hg.table peer hpeer)

section

variable {g g' : Graph} {peer : SessionId}

/-- The graph after a removal: every other member parted from `peer`, and `peer` outside. -/
structure Left (g g' : Graph) (peer : SessionId) : Prop where
  room : g'.room = g.room.vacate (g.session peer).roomSlot
  gone : g'.session peer = (g.session peer).leave
  member : ∀ q, g.Member q → q ≠ peer → g'.session q = (g.session q).part peer
  other : ∀ q, ¬ g.Member q → g'.session q = g.session q

lemma Left.leftSeat (h : Left g g' peer) : LeftSeat g g' peer := by
  refine ⟨h.room, by rw [h.gone]; rfl, ?_⟩
  intro q hq
  by_cases hm : g.Member q
  · rw [h.member q hm hq]
    exact ⟨rfl, rfl⟩
  · rw [h.other q hm]
    exact ⟨rfl, rfl⟩

lemma Left.member_iff (h : Left g g' peer) (q : SessionId) : g'.Member q ↔ g.Member q ∧ q ≠ peer :=
  h.leftSeat.member_iff q

/-- **The pairs that remain** match as before. -/
lemma Left.coherent (h : Left g g' peer) (hg : Coherent g) (hpeer : g.Member peer) :
    Coherent g' := by
  have hids : ∀ q, g'.Member q → (g'.session q).userId = (g.session q).userId ∧
      (g'.session q).peerId = (g.session q).peerId := by
    intro q hq
    obtain ⟨hm, hne⟩ := (h.member_iff q).1 hq
    rw [h.member q hm hne]
    exact ⟨rfl, rfl⟩
  refine ⟨⟨h.leftSeat.seated hg.seated hpeer, ?_, ?_, ?_, ?_⟩, ?_, ?_⟩
  · intro p q hp hq heq
    rw [(hids p hp).2, (hids q hq).2] at heq
    exact hg.ids p q ((h.member_iff p).1 hp).1 ((h.member_iff q).1 hq).1 heq
  · intro p hp
    obtain ⟨hm, hne⟩ := (h.member_iff p).1 hp
    have hl := hg.linked p hm
    have hreceivers : (g'.session p).receivers =
        (g.session p).receivers.remove ReceiverEntry.subscriber peer := by
      rw [h.member p hm hne]
      rfl
    have hbundle : (g'.session p).fanoutBundle =
        (g.session p).fanoutBundle.remove FanoutRoute.subscriber peer := by
      rw [h.member p hm hne]
      rfl
    constructor
    · rw [hreceivers]
      exact hl.receivers.remove
    · rw [hbundle]
      exact hl.bundle.remove
    · intro i e he
      rw [hreceivers] at he
      obtain ⟨hold, hsub⟩ := hl.receivers.cells_remove he
      have hok := hl.entry i e hold
      have hmember := (h.member_iff _).2 ⟨hok.member, hsub⟩
      exact ⟨hok.slot, hok.generation, hmember, hok.ne, by rw [hok.userId, (hids _ hmember).1],
        by rw [hok.peerId, (hids _ hmember).2]⟩
    · intro i r hr
      rw [hbundle] at hr
      obtain ⟨hold, hsub⟩ := hl.bundle.cells_remove hr
      exact ⟨(h.member_iff _).2 ⟨(hl.route i r hold).1, hsub⟩, (hl.route i r hold).2⟩
  · intro p s hp hs
    obtain ⟨hpm, hpne⟩ := (h.member_iff p).1 hp
    obtain ⟨hsm, hsne⟩ := (h.member_iff s).1 hs
    have hdual := hg.dual p s hpm hsm
    unfold Session.routeView Session.entryView bundleView snapView at hdual ⊢
    rw [h.member p hpm hpne, h.member s hsm hsne]
    unfold Session.part
    rw [(hg.linked p hpm).bundle.view_remove, (hg.linked s hsm).receivers.view_remove,
      update_of_ne hsne, update_of_ne hpne, hdual]
  · intro p hp
    by_cases hpp : p = peer
    · rw [hpp, h.gone]
      exact hg.detached_leave hpeer
    · have hnot : ¬ g.Member p := fun hm =>
        not_member_of_none hp ((h.member_iff p).2 ⟨hm, hpp⟩)
      rw [h.other p hnot] at hp ⊢
      exact hg.outside p hp
  · intro p hp
    obtain ⟨hm, hne⟩ := (h.member_iff p).1 hp
    rw [h.member p hm hne]
    exact hg.table_part hm
  · intro p i r hp ha hr
    obtain ⟨hm, hne⟩ := (h.member_iff p).1 hp
    rw [h.member p hm hne] at ha hr
    exact hg.audience p i r hm ha ((hg.linked p hm).bundle.cells_remove hr).1

lemma left_removePeer (hg : Seated g) (hpeer : g.Member peer) :
    Left g (g.removePeer peer .well) peer := by
  have hseat := (hg.peers _ peer).2 ⟨hpeer, rfl⟩
  have hin : ¬ (g.room.peerCapacity ≤ (g.session peer).roomSlot ∨
      g.room.occupied (g.session peer).roomSlot = false ∨
      g.room.peers (g.session peer).roomSlot ≠ some peer) := by
    rw [hg.capacity, hg.occupied, hseat]
    have := hg.roomSlot_lt hpeer
    simp [this]
  have hhere : (g.session peer).room = some g.room.roomId := hpeer
  unfold Graph.removePeer
  rw [if_pos hhere, if_neg hin]
  set h : Graph := { g with
    room := g.room.vacate (g.session peer).roomSlot
    queue := ((reserveMembershipEvent g.queue).map commitMembershipEvent).getD g.queue }
  have hmem : ∀ q, q ∈ h.members ↔ g.Member q ∧ q ≠ peer := by
    intro q
    unfold Graph.members
    rw [mem_filterMap]
    change (∃ i ∈ List.range g.room.peerCapacity,
      update g.room.peers (g.session peer).roomSlot none i = some q) ↔ _
    constructor
    · rintro ⟨i, -, hi⟩
      obtain ⟨-, ⟨⟩⟩ | ⟨heq, hq⟩ := update_cases hi
      refine ⟨((hg.peers i q).1 hq).1, ?_⟩
      rintro rfl
      exact heq ((hg.peers i q).1 hq).2.symm
    · rintro ⟨hq, hne⟩
      have hi := (hg.peers _ q).2 ⟨hq, rfl⟩
      refine ⟨_, mem_range.2 (hg.capacity ▸ hg.lt _ q hi), ?_⟩
      rw [update_of_ne]
      · exact hi
      · intro heq
        exact hne (hg.roomSlot_inj hq hpeer heq)
  have hnd : h.members.Nodup := by
    apply List.Nodup.filterMap _ nodup_range
    intro i j q hi hj
    have hold : ∀ k, update g.room.peers (g.session peer).roomSlot none k = some q →
        g.room.peers k = some q := by
      intro k hk
      by_cases heq : k = (g.session peer).roomSlot
      · rw [heq, update_self] at hk
        cases hk
      · rwa [update_of_ne heq] at hk
    exact hg.peers_inj (hold i hi) (hold j hj)
  obtain ⟨hroom, -, hsession⟩ := foldl_detach peer hnd h
  constructor
  · rw [modify_room, hroom]
  · rw [modify_self, hsession, if_neg (by rw [hmem]; simp)]
  · intro q hq hne
    rw [modify_of_ne hne, hsession, if_pos ((hmem q).2 ⟨hq, hne⟩)]
  · intro q hq
    have hne : q ≠ peer := fun heq => hq (heq ▸ hpeer)
    rw [modify_of_ne hne, hsession, if_neg (by rw [hmem]; exact fun hin => hq hin.1)]

lemma Coherent.removePeer (hg : Coherent g) (peer : SessionId) :
    Coherent (g.removePeer peer .well) ∧ SameWork g (g.removePeer peer .well) := by
  by_cases hpeer : g.Member peer
  · have hleft := left_removePeer hg.seated hpeer
    refine ⟨hleft.coherent hg hpeer, ?_⟩
    intro q
    by_cases hq : q = peer
    · rw [hq, hleft.gone]
      rfl
    · by_cases hm : g.Member q
      · rw [hleft.member q hm hq]
        rfl
      · rw [hleft.other q hm]
  · have hsame : g.removePeer peer .well = g := by
      exact if_neg hpeer
    rw [hsame]
    exact ⟨hg, fun _ => rfl⟩

end

end MezonSfu.RoomGraph
