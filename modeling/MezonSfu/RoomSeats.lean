import MezonSfu.RoomCoherent

/-!
The seats of a room: a peer that joins takes the slot on top of the free stack, and gives it back
when it leaves.
-/

namespace MezonSfu.RoomGraph

open RemoteSlots Function List

variable {g g' : Graph} {peer : SessionId} {slot : ℕ}

lemma seated_init (hroom : ∃ roomId, g.room = .init roomId)
    (hsession : ∀ p, (g.session p).room = none) : Seated g := by
  obtain ⟨roomId, hroom⟩ := hroom
  have hnone : ∀ p, ¬ g.Member p := fun p => not_member_of_none (hsession p)
  constructor
  · rw [hroom]
    rfl
  · intro i p
    rw [hroom]
    constructor
    · intro hp
      cases hp
    · intro hp
      exact absurd hp.1 (hnone p)
  · intro i p hp
    rw [hroom] at hp
    cases hp
  · intro i
    rw [hroom]
    rfl
  · rw [hroom]
    dsimp only [Room.init]
    exact nodup_range
  · intro i
    rw [hroom]
    dsimp only [Room.init]
    rw [mem_range]
    exact ⟨fun hi => ⟨hi, rfl⟩, fun hi => hi.1⟩
  · rw [hroom]
    dsimp only [Room.init]
    rw [length_range, Nat.zero_add]

/-- The peer has taken the seat `slot`. -/
structure TookSeat (g g' : Graph) (peer : SessionId) (slot : ℕ) : Prop where
  room : g'.room = g.room.seat peer slot
  peerRoom : (g'.session peer).room = some g.room.roomId
  roomSlot : (g'.session peer).roomSlot = slot
  seats : ∀ q ≠ peer, (g'.session q).room = (g.session q).room ∧
    (g'.session q).roomSlot = (g.session q).roomSlot

structure LeftSeat (g g' : Graph) (peer : SessionId) : Prop where
  room : g'.room = g.room.vacate (g.session peer).roomSlot
  peerRoom : (g'.session peer).room = none
  seats : ∀ q ≠ peer, (g'.session q).room = (g.session q).room ∧
    (g'.session q).roomSlot = (g.session q).roomSlot

lemma TookSeat.member_iff (h : TookSeat g g' peer slot) (q : SessionId) :
    g'.Member q ↔ q = peer ∨ g.Member q := by
  unfold Graph.Member
  rw [h.room]
  by_cases hq : q = peer
  · rw [hq, h.peerRoom]
    simp [Room.seat]
  · rw [(h.seats q hq).1]
    simp [Room.seat, hq]

lemma TookSeat.seated (h : TookSeat g g' peer slot) (hg : Seated g) (hnew : ¬ g.Member peer)
    {rest : List ℕ} (hfree : g.room.freeSlots = slot :: rest) : Seated g' := by
  have hslot := (hg.free slot).1 (hfree ▸ .head _)
  have hnd : slot ∉ rest ∧ rest.Nodup := nodup_cons.1 (hfree ▸ hg.free_nodup)
  have hpeers : g'.room.peers = update g.room.peers slot (some peer) := by
    rw [h.room]
    rfl
  have hstack : g'.room.freeSlots = rest := by
    rw [h.room]
    unfold Room.seat
    rw [hfree, tail_cons]
  refine ⟨?_, ?_, ?_, ?_, hstack ▸ hnd.2, ?_, ?_⟩
  · rw [h.room]
    exact hg.capacity
  · intro i p
    rw [hpeers, h.member_iff]
    by_cases hp : p = peer
    · subst hp
      rw [h.roomSlot]
      by_cases hi : i = slot
      · rw [hi, update_self]
        simp
      rw [update_of_ne hi]
      constructor
      · intro hsome
        exact absurd ((hg.peers i p).1 hsome).1 hnew
      · rintro ⟨-, heq⟩
        exact absurd heq.symm hi
    · rw [(h.seats p hp).2]
      by_cases hi : i = slot
      · rw [hi, update_self]
        constructor
        · intro hsome
          exact absurd (Option.some.inj hsome).symm hp
        · rintro ⟨hmem, heq⟩
          have hin := (hg.peers slot p).2 ⟨hmem.resolve_left hp, heq⟩
          rw [hslot.2] at hin
          cases hin
      · rw [update_of_ne hi, hg.peers i p]
        simp [hp]
  · intro i p hsome
    rw [hpeers] at hsome
    by_cases hi : i = slot
    · rw [hi]
      exact hslot.1
    · rw [update_of_ne hi] at hsome
      exact hg.lt i p hsome
  · intro i
    have hocc : g'.room.occupied = update g.room.occupied slot true := by
      rw [h.room]
      rfl
    rw [hocc, hpeers]
    by_cases hi : i = slot
    · rw [hi, update_self, update_self]
      rfl
    · rw [update_of_ne hi, update_of_ne hi]
      exact hg.occupied i
  · intro i
    rw [hstack, hpeers]
    have hold := hg.free i
    rw [hfree, mem_cons] at hold
    by_cases hi : i = slot
    · rw [hi, update_self]
      simp [hnd.1]
    · rw [update_of_ne hi, ← hold]
      simp [hi]
  · have hcount := hg.count
    rw [hfree, length_cons] at hcount
    rw [hstack, h.room]
    change g.room.peerCount + 1 + rest.length = _
    omega

lemma Seated.peerCount_pos (h : Seated g) (hpeer : g.Member peer) : 0 < g.room.peerCount := by
  have hseat := (h.peers _ peer).2 ⟨hpeer, rfl⟩
  have hsub : g.room.freeSlots.toFinset ⊆
      (Finset.range roomMaxPeers).erase (g.session peer).roomSlot := by
    intro i hi
    rw [mem_toFinset, h.free] at hi
    rw [Finset.mem_erase, Finset.mem_range]
    refine ⟨?_, hi.1⟩
    rintro rfl
    rw [hseat] at hi
    cases hi.2
  have hcard := Finset.card_le_card hsub
  rw [toFinset_card_of_nodup h.free_nodup,
    Finset.card_erase_of_mem (Finset.mem_range.2 (h.roomSlot_lt hpeer)), Finset.card_range]
    at hcard
  have hpos : 0 < roomMaxPeers := by decide
  have hcount := h.count
  omega

lemma LeftSeat.member_iff (h : LeftSeat g g' peer) (q : SessionId) :
    g'.Member q ↔ g.Member q ∧ q ≠ peer := by
  have hid : g'.room.roomId = g.room.roomId := by rw [h.room]; rfl
  unfold Graph.Member
  rw [hid]
  by_cases hq : q = peer
  · rw [hq, h.peerRoom]
    simp
  · rw [(h.seats q hq).1]
    exact ⟨fun hr => ⟨hr, hq⟩, fun hr => hr.1⟩

lemma LeftSeat.seated (h : LeftSeat g g' peer) (hg : Seated g) (hpeer : g.Member peer) :
    Seated g' := by
  have hseat := (hg.peers _ peer).2 ⟨hpeer, rfl⟩
  have hpeers : g'.room.peers =
      update g.room.peers (g.session peer).roomSlot none := by rw [h.room]; rfl
  have hfree : g'.room.freeSlots = (g.session peer).roomSlot :: g.room.freeSlots := by
    rw [h.room]; rfl
  have hkept : ∀ i p, g'.room.peers i = some p ↔ g.room.peers i = some p ∧ p ≠ peer := by
    intro i p
    rw [hpeers]
    by_cases hi : i = (g.session peer).roomSlot
    · rw [hi, update_self, hseat]
      simp only [reduceCtorEq, Option.some.injEq, false_iff, not_and, not_not]
      exact fun heq => heq.symm
    · rw [update_of_ne hi]
      refine ⟨fun hp => ⟨hp, ?_⟩, fun hp => hp.1⟩
      rintro rfl
      exact hi (((hg.peers i p).1 hp).2).symm
  constructor
  · rw [h.room]
    exact hg.capacity
  · intro i p
    rw [hkept, hg.peers, h.member_iff]
    constructor
    · rintro ⟨⟨hm, hslot⟩, hne⟩
      rw [(h.seats p hne).2]
      exact ⟨⟨hm, hne⟩, hslot⟩
    · rintro ⟨⟨hm, hne⟩, hslot⟩
      rw [(h.seats p hne).2] at hslot
      exact ⟨⟨hm, hslot⟩, hne⟩
  · intro i p hp
    exact hg.lt i p ((hkept i p).1 hp).1
  · intro i
    have hocc : g'.room.occupied =
        update g.room.occupied (g.session peer).roomSlot false := by rw [h.room]; rfl
    rw [hocc, hpeers]
    by_cases hi : i = (g.session peer).roomSlot
    · rw [hi, update_self, update_self]
      rfl
    · rw [update_of_ne hi, update_of_ne hi]
      exact hg.occupied i
  · rw [hfree, nodup_cons]
    refine ⟨?_, hg.free_nodup⟩
    intro hin
    rw [hg.free, hseat] at hin
    cases hin.2
  · intro i
    rw [hfree, hpeers, mem_cons]
    by_cases hi : i = (g.session peer).roomSlot
    · rw [hi, update_self]
      simp [hg.roomSlot_lt hpeer]
    · rw [update_of_ne hi, hg.free]
      simp [hi]
  · have hcount : g'.room.peerCount = g.room.peerCount - 1 := by rw [h.room]; rfl
    rw [hcount, hfree, length_cons]
    have hpos := hg.peerCount_pos hpeer
    have hold := hg.count
    omega

end MezonSfu.RoomGraph
