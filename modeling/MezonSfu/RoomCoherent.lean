import MezonSfu.RemoteSlotsSafe
import MezonSfu.RoomGraph

/-!
What holds together in a room between two operations.

A slot table is seen as the partial function of its active slots, a receiver snapshot and a
fanout bundle as partial functions of the other sessions. In a coherent room the active slots of
a session are those of its entries, and the routes of one member are the entries of the others.
-/

namespace MezonSfu.RemoteSlots

open Function

/-! ### The active slots of a table -/

/-- What an active slot is assigned to: the publisher's ids and the generation. -/
def SlotTable.assigned (t : SlotTable) (i : ℕ) : Option (ℤ × ℕ × ℕ) :=
  if (t.slots i).state = .active then
    some ((t.slots i).publisherUserId, (t.slots i).publisherPeerId,
      (t.slots i).assignmentGeneration)
  else none

variable {t t' : SlotTable} {i gen : ℕ} {u : ℤ} {p : ℕ}

lemma assigned_eq_some : t.assigned i = some (u, p, gen) ↔ t.slots i = ⟨.active, u, p, gen⟩ := by
  unfold SlotTable.assigned
  constructor
  · intro h
    split at h
    · rename_i ha
      obtain ⟨rfl, rfl, rfl⟩ : _ ∧ _ ∧ _ := by simpa using h
      rw [← ha]
    · cases h
  · intro h
    rw [h, if_pos rfl]

lemma assigned_of_not_active (h : (t.slots i).state ≠ .active) : t.assigned i = none := if_neg h

lemma assigned_congr (h : t'.slots i = t.slots i) : t'.assigned i = t.assigned i := by
  unfold SlotTable.assigned
  rw [h]

lemma assigned_update_active (h : t'.slots = update t.slots i ⟨.active, u, p, gen⟩) :
    t'.assigned = update t.assigned i (some (u, p, gen)) := by
  funext j
  by_cases hj : j = i
  · rw [hj, update_self, assigned_eq_some, h, update_self]
  · rw [update_of_ne hj]
    apply assigned_congr
    rw [h, update_of_ne hj]

lemma assigned_update_inactive {r : RemoteSlot} (h : t'.slots = update t.slots i r)
    (hr : r.state ≠ .active) : t'.assigned = update t.assigned i none := by
  funext j
  by_cases hj : j = i
  · rw [hj, update_self]
    apply assigned_of_not_active
    rw [h, update_self]
    exact hr
  · rw [update_of_ne hj]
    apply assigned_congr
    rw [h, update_of_ne hj]

lemma assigned_of_inactive (h : ∀ i, t'.slots i = t.slots i ∨
      ((t.slots i).state ≠ .active ∧ (t'.slots i).state ≠ .active)) : t'.assigned = t.assigned := by
  funext i
  rcases h i with heq | ⟨hold, hnew⟩
  · exact assigned_congr heq
  · rw [assigned_of_not_active hold, assigned_of_not_active hnew]

def SlotTable.Vacant (t : SlotTable) (u : ℤ) (p : ℕ) : Prop :=
  ∀ i gen, t.assigned i ≠ some (u, p, gen)

lemma existingSlot_of_vacant (h : t.Vacant u p) : t.existingSlot u p = none := by
  cases he : t.existingSlot u p with
  | none => rfl
  | some i =>
    obtain ⟨hs, hp, hu⟩ := carries_iff.1 (existingSlot_spec he).2
    refine absurd ?_ (h i (t.slots i).assignmentGeneration)
    rw [assigned_eq_some, ← hs, ← hp, ← hu]

lemma reserve_none (h : (remoteSlotReserve t u p).2 = none) : (remoteSlotReserve t u p).1 = t := by
  unfold remoteSlotReserve at h ⊢
  split
  · rfl
  rename_i hp
  rw [if_neg hp] at h
  split
  · rfl
  rename_i he
  rw [he] at h
  split
  · rfl
  · rename_i hf
    rw [hf] at h
    cases h

lemma reserve_some {r : ℕ × ℕ} (hv : t.Vacant u p) (h : (remoteSlotReserve t u p).2 = some r) :
    r.1 < maxRemoteSlots ∧ (t.slots r.1).state = .free ∧
      r.2 = remoteSlotNextNonzero t.nextAssignmentGeneration ∧
      (remoteSlotReserve t u p).1 = t.assign r.1 u p := by
  have he := existingSlot_of_vacant hv
  unfold remoteSlotReserve at h ⊢
  rw [he] at h ⊢
  split at h
  · cases h
  rename_i hp
  rw [if_neg hp]
  cases hf : t.freeSlot with
  | none =>
    rw [hf] at h
    cases h
  | some i =>
    rw [hf] at h
    obtain rfl := Option.some.inj h
    exact ⟨(freeSlot_spec hf).1, (freeSlot_spec hf).2, rfl, rfl⟩

lemma assigned_assign (i : ℕ) :
    (t.assign i u p).assigned =
      update t.assigned i
        (some (u, p, remoteSlotNextNonzero t.nextAssignmentGeneration)) :=
  assigned_update_active rfl

lemma assigned_retire (hi : i < maxRemoteSlots) (hg : gen ≠ 0)
    (h : t.assigned i = some (u, p, gen)) :
    (remoteSlotRetire t i gen).1.assigned = update t.assigned i none := by
  have hslot := assigned_eq_some.1 h
  rcases retire_cases t i gen with heq | ⟨-, -, -, -, ⟨-, heq⟩ | ⟨-, -, heq⟩ | ⟨-, -, heq⟩⟩
  · exfalso
    unfold remoteSlotRetire at heq
    rw [if_neg (by omega), if_pos (by rw [hslot]; exact ⟨rfl, rfl⟩)] at heq
    split at heq
    · exact absurd (congrArg Prod.snd heq) Bool.noConfusion
    · split at heq <;> exact absurd (congrArg Prod.snd heq) Bool.noConfusion
  · rw [heq]
    exact assigned_update_inactive rfl SlotState.noConfusion
  · rw [heq]
    exact assigned_update_inactive rfl SlotState.noConfusion
  · rw [heq]
    exact assigned_update_inactive rfl SlotState.noConfusion

lemma assigned_install (m : OfferManifest) : (remoteOfferInstall t m).1.assigned = t.assigned := by
  rcases install_cases t m with heq | ⟨-, -, -, heq⟩
  · rw [heq]
  rw [heq]
  apply assigned_of_inactive
  intro i
  dsimp only
  unfold installSlot
  split_ifs with hi hr
  · exact .inr ⟨by rw [hr.1]; exact SlotState.noConfusion, SlotState.noConfusion⟩
  · exact .inl rfl
  · exact .inl rfl

lemma assigned_applyAnswer (m : OfferManifest) :
    (remoteOfferApplyAnswer t m).1.assigned = t.assigned := by
  rcases applyAnswer_cases t m with heq | ⟨-, -, -, heq⟩
  · rw [heq]
  rw [heq]
  apply assigned_of_inactive
  intro i
  dsimp only [SlotTable.answered]
  unfold answerSlot
  split_ifs with hi hr ho
  · exact .inr ⟨by rcases hr with h | h <;> rw [h] <;> exact SlotState.noConfusion,
      SlotState.noConfusion⟩
  · exact .inr ⟨by rcases hr with h | h <;> rw [h] <;> exact SlotState.noConfusion,
      SlotState.noConfusion⟩
  · exact .inl rfl
  · exact .inl rfl

end MezonSfu.RemoteSlots

namespace MezonSfu.RoomGraph

open RemoteSlots

/-- Slot and generation of the entry for each publisher. -/
def snapView (snap : ReceiverSnapshot) : SessionId → Option (ℕ × ℕ) :=
  snap.view ReceiverEntry.subscriber fun e => (e.remoteSlot, e.assignmentGeneration)

def bundleView (bundle : FanoutBundle) : SessionId → Option (ℕ × ℕ) :=
  bundle.view FanoutRoute.subscriber fun r => (r.remoteSlot, r.assignmentGeneration)

def Session.entryView (s : Session) : SessionId → Option (ℕ × ℕ) := snapView s.receivers

def Session.routeView (s : Session) : SessionId → Option (ℕ × ℕ) := bundleView s.fanoutBundle

/-- What the entries of a snapshot say about the slots. -/
def tags (snap : ReceiverSnapshot) (i : ℕ) : Option (ℤ × ℕ × ℕ) :=
  (snap.cells i).map fun e => (e.publisherUserId, e.publisherPeerId, e.assignmentGeneration)

def Graph.Member (g : Graph) (p : SessionId) : Prop := (g.session p).room = some g.room.roomId

instance (g : Graph) (p : SessionId) : Decidable (g.Member p) := inferInstanceAs (Decidable (_ = _))

variable {g : Graph} {p : SessionId}

lemma not_member_of_none (h : (g.session p).room = none) : ¬ g.Member p := by
  intro hp
  cases h.symm.trans hp

structure Seated (g : Graph) : Prop where
  capacity : g.room.peerCapacity = roomMaxPeers
  peers : ∀ i p, g.room.peers i = some p ↔ g.Member p ∧ (g.session p).roomSlot = i
  lt : ∀ i p, g.room.peers i = some p → i < roomMaxPeers
  occupied : ∀ i, g.room.occupied i = (g.room.peers i).isSome
  free_nodup : g.room.freeSlots.Nodup
  free : ∀ i, i ∈ g.room.freeSlots ↔ i < roomMaxPeers ∧ g.room.peers i = none
  count : g.room.peerCount + g.room.freeSlots.length = roomMaxPeers

/-- An entry of `p` in cell `i` is about another member and says who that is. -/
structure EntryOk (g : Graph) (p : SessionId) (i : ℕ) (e : ReceiverEntry) : Prop where
  slot : e.remoteSlot = i
  generation : e.assignmentGeneration ≠ 0
  member : g.Member e.subscriber
  ne : e.subscriber ≠ p
  userId : e.publisherUserId = (g.session e.subscriber).userId
  peerId : e.publisherPeerId = (g.session e.subscriber).peerId

/-- A member's snapshot and bundle: one entry and one route per session, about other members. -/
structure Linked (g : Graph) (p : SessionId) : Prop where
  receivers : (g.session p).receivers.WF ReceiverEntry.subscriber
  bundle : (g.session p).fanoutBundle.WF FanoutRoute.subscriber
  entry : ∀ i e, (g.session p).receivers.cells i = some e → EntryOk g p i e
  route : ∀ i r, (g.session p).fanoutBundle.cells i = some r →
    g.Member r.subscriber ∧ r.subscriber ≠ p

/-- A session that is in no room receives nothing, sends nothing and has no active slot. -/
structure Detached (s : Session) : Prop where
  receivers : s.receivers.cells = fun _ => none
  bundle : s.fanoutBundle.cells = fun _ => none
  assigned : s.remoteSlots.assigned = fun _ => none

structure Paired (g : Graph) : Prop where
  seated : Seated g
  ids : ∀ p q, g.Member p → g.Member q → (g.session p).peerId = (g.session q).peerId → p = q
  linked : ∀ p, g.Member p → Linked g p
  dual : ∀ p s, g.Member p → g.Member s → (g.session p).routeView s = (g.session s).entryView p
  outside : ∀ p, (g.session p).room = none → Detached (g.session p)

/-- **The graph invariant**: the pairs match, the active slots of a member are those of its
entries, and no route of a listener is eligible for camera or screen. -/
structure Coherent (g : Graph) : Prop extends Paired g where
  table : ∀ p, g.Member p → (g.session p).remoteSlots.assigned = tags (g.session p).receivers
  audience : ∀ p i r, g.Member p → (g.session p).isAudience = true →
    (g.session p).fanoutBundle.cells i = some r →
    r.eligible.video = false ∧ r.eligible.screen = false

/-! ### Changing one session -/

section

variable {g : Graph} {p q : SessionId} {f : Session → Session}

@[simp] lemma modify_room : (g.modify p f).room = g.room := rfl

@[simp] lemma modify_self : (g.modify p f).session p = f (g.session p) := by
  simp [Graph.modify]

lemma modify_of_ne (h : q ≠ p) : (g.modify p f).session q = g.session q := by
  simp [Graph.modify, h]

lemma modify_id (h : f (g.session p) = g.session p) : g.modify p f = g := by
  unfold Graph.modify
  rw [h, Function.update_eq_self]

lemma modify_field {A : Type} (field : Session → A) (h : ∀ s, field (f s) = field s) :
    field ((g.modify p f).session q) = field (g.session q) := by
  by_cases hq : q = p
  · rw [hq, modify_self, h]
  · rw [modify_of_ne hq]

end

/-- The fields the pairing is about. -/
structure SameLinks (s s' : Session) : Prop where
  userId : s'.userId = s.userId
  peerId : s'.peerId = s.peerId
  room : s'.room = s.room
  roomSlot : s'.roomSlot = s.roomSlot
  receivers : s'.receivers = s.receivers
  bundle : s'.fanoutBundle = s.fanoutBundle

lemma Seated.of_same {h : Graph} (hg : Seated g) (hroom : h.room = g.room)
    (hmem : ∀ p, h.Member p ↔ g.Member p)
    (hslot : ∀ p, (h.session p).roomSlot = (g.session p).roomSlot) : Seated h := by
  constructor
  · rw [hroom, hg.capacity]
  · intro i p
    rw [hroom, hmem, hslot]
    exact hg.peers i p
  · rw [hroom]
    exact hg.lt
  · rw [hroom]
    exact hg.occupied
  · rw [hroom]
    exact hg.free_nodup
  · rw [hroom]
    exact hg.free
  · rw [hroom]
    exact hg.count

lemma EntryOk.of_same {h : Graph} {i : ℕ} {e : ReceiverEntry}
    (he : EntryOk g p i e) (hmem : h.Member e.subscriber)
    (huser : (h.session e.subscriber).userId = (g.session e.subscriber).userId)
    (hpid : (h.session e.subscriber).peerId = (g.session e.subscriber).peerId) : EntryOk h p i e :=
  ⟨he.slot, he.generation, hmem, he.ne, he.userId.trans huser.symm, he.peerId.trans hpid.symm⟩

lemma Paired.of_same {h : Graph} (hg : Paired g) (hroom : h.room = g.room)
    (hsame : ∀ p, SameLinks (g.session p) (h.session p)) (hout : ∀ p, (g.session p).room = none →
      (h.session p).remoteSlots.assigned = (g.session p).remoteSlots.assigned) : Paired h := by
  have hmem : ∀ p, h.Member p ↔ g.Member p := by
    intro p
    unfold Graph.Member
    rw [(hsame p).room, hroom]
  refine ⟨hg.seated.of_same hroom hmem fun p => (hsame p).roomSlot, ?_, ?_, ?_, ?_⟩
  · intro p q hp hq hid
    rw [(hsame p).peerId, (hsame q).peerId] at hid
    exact hg.ids p q ((hmem p).1 hp) ((hmem q).1 hq) hid
  · intro p hp
    have hl := hg.linked p ((hmem p).1 hp)
    constructor
    · rw [(hsame p).receivers]
      exact hl.receivers
    · rw [(hsame p).bundle]
      exact hl.bundle
    · intro i e he
      rw [(hsame p).receivers] at he
      have hok := hl.entry i e he
      exact hok.of_same ((hmem _).2 hok.member) (hsame _).userId (hsame _).peerId
    · intro i r hr
      rw [(hsame p).bundle] at hr
      exact ⟨(hmem _).2 (hl.route i r hr).1, (hl.route i r hr).2⟩
  · intro p s hp hs
    unfold Session.routeView Session.entryView
    rw [(hsame p).bundle, (hsame s).receivers]
    exact hg.dual p s ((hmem p).1 hp) ((hmem s).1 hs)
  · intro p hp
    rw [(hsame p).room] at hp
    have hd := hg.outside p hp
    exact ⟨(hsame p).receivers ▸ hd.receivers, (hsame p).bundle ▸ hd.bundle,
      (hout p hp).trans hd.assigned⟩

/-! ### Members -/

section

variable {g : Graph} {p q : SessionId} (h : Linked g q) (hp : ¬ g.Member p)

include h hp

lemma Linked.entryView_eq_none : (g.session q).entryView p = none := by
  cases hv : (g.session q).entryView p with
  | none => rfl
  | some v =>
    obtain ⟨i, e, he, hkey, -⟩ := SlotMap.cells_of_view hv
    exact absurd (hkey ▸ (h.entry i e he).member) hp

lemma Linked.routeView_eq_none : (g.session q).routeView p = none := by
  cases hv : (g.session q).routeView p with
  | none => rfl
  | some v =>
    obtain ⟨i, r, hr, hkey, -⟩ := SlotMap.cells_of_view hv
    exact absurd (hkey ▸ (h.route i r hr).1) hp

end

section

variable {g : Graph} (h : Seated g) {p q : SessionId} {i j : ℕ}

include h

lemma Seated.peers_inj (hi : g.room.peers i = some p) (hj : g.room.peers j = some p) : i = j := by
  rw [← ((h.peers i p).1 hi).2, ← ((h.peers j p).1 hj).2]

lemma Seated.mem_members : p ∈ g.members ↔ g.Member p := by
  unfold Graph.members
  rw [List.mem_filterMap]
  constructor
  · rintro ⟨i, -, hi⟩
    exact ((h.peers i p).1 hi).1
  · intro hp
    have hi := (h.peers _ p).2 ⟨hp, rfl⟩
    exact ⟨_, List.mem_range.2 (h.capacity ▸ h.lt _ p hi), hi⟩

lemma Seated.members_nodup : g.members.Nodup := by
  apply List.Nodup.filterMap _ List.nodup_range
  intro i j p hi hj
  exact h.peers_inj hi hj

lemma Seated.mem_others : q ∈ g.others p ↔ g.Member q ∧ q ≠ p ∧ (g.session q).acceptsWork := by
  unfold Graph.others
  rw [List.mem_filter, h.mem_members]
  simp

lemma Seated.others_nodup : (g.others p).Nodup := h.members_nodup.filter _

lemma Seated.targets_eq : g.targets p = g.others p := by
  unfold Graph.targets Graph.others Graph.members
  congr 1
  apply List.filterMap_congr
  intro i _
  rw [h.occupied]
  cases g.room.peers i <;> rfl

lemma Seated.roomSlot_lt (hp : g.Member p) : (g.session p).roomSlot < roomMaxPeers :=
  h.lt _ p ((h.peers _ p).2 ⟨hp, rfl⟩)

lemma Seated.roomSlot_inj (hp : g.Member p) (hq : g.Member q)
    (heq : (g.session p).roomSlot = (g.session q).roomSlot) : p = q := by
  have h1 := (h.peers _ p).2 ⟨hp, rfl⟩
  have h2 := (h.peers _ q).2 ⟨hq, rfl⟩
  rw [heq, h2] at h1
  exact (Option.some.inj h1).symm

end

/-- **A bundle never runs out of cells**: a member without a route to another one has an empty
cell for it. -/
lemma Paired.exists_empty (h : Paired g) {s : SessionId} (hp : g.Member p)
    (hs : g.Member s) (hne : s ≠ p) (hnone : bundleFind (g.session p).fanoutBundle s = none) :
    ∃ i, (g.session p).fanoutBundle.firstEmpty = some i := by
  have hl := h.linked p hp
  have hslot : ∀ q, g.Member q → (g.session q).roomSlot < roomMaxPeers := fun q hq =>
    h.seated.roomSlot_lt hq
  -- the subscribers are seated in places other than those of `p` and of `s`
  apply hl.bundle.exists_empty (fun q => (g.session q).roomSlot)
    (((Finset.range roomMaxPeers).erase (g.session p).roomSlot).erase (g.session s).roomSlot)
  · have hps : (g.session s).roomSlot ≠ (g.session p).roomSlot := fun heq =>
      hne (h.seated.roomSlot_inj hs hp heq)
    rw [Finset.card_erase_of_mem (Finset.mem_erase.2 ⟨hps, Finset.mem_range.2 (hslot s hs)⟩),
      Finset.card_erase_of_mem (Finset.mem_range.2 (hslot p hp)), Finset.card_range]
    decide
  · intro i r hr
    obtain ⟨hmem, hrp⟩ := hl.route i r hr
    have hrs : r.subscriber ≠ s := SlotMap.find_none hnone (hl.bundle.lt i r hr) hr
    rw [Finset.mem_erase, Finset.mem_erase, Finset.mem_range]
    exact ⟨fun heq => hrs (h.seated.roomSlot_inj hmem hs heq),
      fun heq => hrp (h.seated.roomSlot_inj hmem hp heq), hslot _ hmem⟩
  · intro i j r r' hr hr' heq
    exact h.seated.roomSlot_inj (hl.route i r hr).1 (hl.route j r' hr').1 heq

end MezonSfu.RoomGraph
