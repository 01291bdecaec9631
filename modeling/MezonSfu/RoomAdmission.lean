import MezonSfu.RoomDuality

/-!
Admission to a room is all or nothing.

Every failure of `room_add_peer_result` comes before the commit point, when only slots have been
reserved. The slots are fresh: free before, unknown to the installed offer and not applied. So
their retirement frees them at once, and only the counters remember the attempt.
-/

namespace MezonSfu.RoomGraph

open RemoteSlots Function List

/-! ### What a table keeps besides its slots -/

/-- The invariant of a slot table: the slots agree with what is applied, the installed offer
only knows generations given out and lies below the floor, and the high-water mark stands on a
slot that holds it up. -/
structure SlotsOk (t : SlotTable) : Prop where
  good : RemoteSlots.Good t
  offered : ∀ m, t.offeredManifest = some m →
    m.highWaterSlots ≤ t.offeredSlotFloor ∧
      ∀ i, m.assignmentGenerations i ≤ t.nextAssignmentGeneration
  top : t.highWaterSlots = 0 ∨ t.retireStop (t.highWaterSlots - 1) = true

lemma slotsOk_init : SlotsOk .init := by
  refine ⟨good_init, ?_, .inl rfl⟩
  intro m hm
  cases hm

/-- The tables agree in everything but the counters and the high-water mark, which may have
risen. -/
structure Restored (t t' : SlotTable) : Prop where
  slots : t'.slots = t.slots
  applied : t'.applied = t.applied
  offeredManifest : t'.offeredManifest = t.offeredManifest
  offeredSlotFloor : t'.offeredSlotFloor = t.offeredSlotFloor
  nextOfferGeneration : t'.nextOfferGeneration = t.nextOfferGeneration
  nextAssignmentGeneration : t.nextAssignmentGeneration ≤ t'.nextAssignmentGeneration
  highWaterSlots : t.highWaterSlots ≤ t'.highWaterSlots

/-- The table takes `n` more reservations before its counter wraps. -/
def Spare (n : ℕ) (t : SlotTable) : Prop := SlotsOk t ∧ t.nextAssignmentGeneration + n < 2 ^ 64

variable {i n p : ℕ} {u : ℤ} {t : SlotTable}

lemma le_shrinkHighWater {stop : ℕ → Bool} {m : ℕ} (hm : m = 0 ∨ stop (m - 1))
    (hle : m ≤ n) : m ≤ shrinkHighWater stop n := by
  by_contra hlt
  have hpassed : stop (m - 1) = false := shrinkHighWater_passed (by omega : _ ≤ m - 1)
    (by omega : m - 1 < n)
  rcases hm with rfl | hstop
  · omega
  · rw [hstop] at hpassed
    cases hpassed

lemma SlotsOk.assign (h : SlotsOk t) (hi : i < maxRemoteSlots) (hfree : (t.slots i).state = .free)
    (hnone : t.existingSlot u p = none) (hlt : t.nextAssignmentGeneration + 1 < 2 ^ 64) :
    SlotsOk (t.assign i u p) := by
  obtain ⟨hgood, hoffered, htop⟩ := h
  have hnext : (t.assign i u p).nextAssignmentGeneration = t.nextAssignmentGeneration + 1 :=
    nextNonzero_eq hlt
  refine ⟨good_assign hgood hi hfree hnone hlt, ?_, ?_⟩
  · intro m hm
    obtain ⟨hfloor, hgens⟩ := hoffered m hm
    refine ⟨hfloor, fun j => ?_⟩
    rw [hnext]
    exact (hgens j).trans (Nat.le_succ _)
  · right
    by_cases hle : t.highWaterSlots ≤ i
    · simp [SlotTable.assign, SlotTable.retireStop, hle]
    · have hstop : t.retireStop (t.highWaterSlots - 1) := htop.resolve_left (by omega)
      by_cases heq : t.highWaterSlots - 1 = i
      · simp [SlotTable.assign, SlotTable.retireStop, hle, heq]
      · simpa [SlotTable.assign, SlotTable.retireStop, hle, heq] using hstop

lemma spare_assign (h : Spare (n + 1) t) (hi : i < maxRemoteSlots)
    (hfree : (t.slots i).state = .free) (hv : t.Vacant u p) : Spare n (t.assign i u p) := by
  obtain ⟨hok, hbound⟩ := h
  refine ⟨hok.assign hi hfree (existingSlot_of_vacant hv) (by omega), ?_⟩
  have hnext : (t.assign i u p).nextAssignmentGeneration = t.nextAssignmentGeneration + 1 :=
    nextNonzero_eq (by omega)
  omega

/-- **A fresh reservation is undone** by its retirement. -/
lemma restored_retire {t' : SlotTable} (h : Spare (n + 1) t) (hi : i < maxRemoteSlots)
    (hfree : (t.slots i).state = .free) (hr : Restored (t.assign i u p) t') :
    Restored t (remoteSlotRetire t' i (remoteSlotNextNonzero t.nextAssignmentGeneration)).1 := by
  obtain ⟨⟨hgood, hoffered, htop⟩, hbound⟩ := h
  have hgen : remoteSlotNextNonzero t.nextAssignmentGeneration = t.nextAssignmentGeneration + 1 :=
    nextNonzero_eq (by omega)
  have hslot : t'.slots i = ⟨.active, u, p, t.nextAssignmentGeneration + 1⟩ := by
    rw [hr.slots, ← hgen]
    exact update_self ..
  have hoffers : t'.offers i (t.nextAssignmentGeneration + 1) = false := by
    have hsame : (t.assign i u p).offeredManifest = t.offeredManifest := rfl
    unfold SlotTable.offers
    rw [hr.offeredManifest, hsame]
    cases hm : t.offeredManifest with
    | none => rfl
    | some m =>
      have hle := (hoffered m hm).2 i
      exact decide_eq_false (by omega)
  have happlied : t'.applied i ≠ t.nextAssignmentGeneration + 1 := by
    rw [hr.applied]
    change t.applied i ≠ _
    rw [hgood.free_applied hfree]
    omega
  have hretire : (remoteSlotRetire t' i (t.nextAssignmentGeneration + 1)).1 = t'.freeRetired i := by
    unfold remoteSlotRetire
    rw [if_neg (by omega), if_pos (by rw [hslot]; exact ⟨rfl, rfl⟩), hoffers,
      if_neg Bool.noConfusion, if_neg happlied]
  have hslots : update t'.slots i .zero = t.slots := by
    rw [hr.slots]
    change update (update t.slots i _) i _ = _
    rw [update_idem, ← hgood.free_zero i hfree, update_eq_self]
  rw [hgen, hretire]
  have hnext := hr.nextAssignmentGeneration
  change remoteSlotNextNonzero t.nextAssignmentGeneration ≤ _ at hnext
  refine { hr with slots := hslots, nextAssignmentGeneration := ?_, highWaterSlots := ?_ }
  · change _ ≤ t'.nextAssignmentGeneration
    omega
  -- the loop does not pass the slot the old mark stands on
  apply le_shrinkHighWater
  · rcases htop with hzero | hstop
    · exact .inl hzero
    · right
      unfold SlotTable.retireStop at hstop ⊢
      rw [hslots, hr.applied, hr.offeredManifest, hr.offeredSlotFloor]
      exact hstop
  · have hhw := hr.highWaterSlots
    have hle : t.highWaterSlots ≤ (t.assign i u p).highWaterSlots := by
      dsimp only [SlotTable.assign]
      split <;> omega
    exact hle.trans hhw

lemma undoing_restored : Undoing Spare Restored where
  refl t := ⟨rfl, rfl, rfl, rfl, rfl, le_rfl, le_rfl⟩
  less n t h := ⟨h.1, by have := h.2; omega⟩
  keeps n t u p r h hv hr := by
    obtain ⟨hlt, hfree, -, htable⟩ := reserve_some hv hr
    rw [htable]
    exact spare_assign h hlt hfree hv
  undo n t u p r t' h hv hr hR := by
    obtain ⟨hlt, hfree, hgen, htable⟩ := reserve_some hv hr
    rw [htable] at hR
    rw [hgen]
    exact restored_retire h hlt hfree hR

/-! ### Tables that are reached -/

lemma shrinkHighWater_stop (stop : ℕ → Bool) (n : ℕ) :
    shrinkHighWater stop n = 0 ∨ stop (shrinkHighWater stop n - 1) := by
  induction n with
  | zero => exact .inl rfl
  | succ n ih =>
    unfold shrinkHighWater
    split
    · rename_i hstop
      exact .inr hstop
    · exact ih

/-- What holds the mark up. -/
lemma retireStop_iff :
    t.retireStop i ↔ (t.slots i).state ≠ .free ∨ t.applied i ≠ 0 ∨
      (∃ m, t.offeredManifest = some m ∧ i < m.highWaterSlots ∧ m.assignmentGenerations i ≠ 0) ∨
      i < t.offeredSlotFloor := by
  unfold SlotTable.retireStop
  cases t.offeredManifest with
  | none | some => simp [or_assoc]

lemma SlotsOk.setState (h : SlotsOk t) {s : SlotState} (hs : s ≠ .free)
    (hgood : RemoteSlots.Good (t.setState i s)) : SlotsOk (t.setState i s) := by
  refine ⟨hgood, h.offered, h.top.imp_right fun hstop => ?_⟩
  rw [retireStop_iff] at hstop ⊢
  refine hstop.imp_left fun hstate => ?_
  change (update t.slots i _ (t.highWaterSlots - 1)).state ≠ _
  by_cases heq : t.highWaterSlots - 1 = i
  · rw [heq, update_self]
    exact hs
  · rw [update_of_ne heq]
    exact hstate

lemma SlotsOk.retire (h : SlotsOk t) (slot generation : ℕ) :
    SlotsOk (remoteSlotRetire t slot generation).1 := by
  have hgood := good_retire h.good slot generation
  rcases retire_cases t slot generation with
    heq | ⟨-, -, -, -, ⟨-, heq⟩ | ⟨-, -, heq⟩ | ⟨-, -, heq⟩⟩
  · rw [heq]
    exact h
  · rw [heq] at hgood ⊢
    exact h.setState SlotState.noConfusion hgood
  · rw [heq] at hgood ⊢
    exact h.setState SlotState.noConfusion hgood
  · rw [heq] at hgood ⊢
    exact ⟨hgood, h.offered, shrinkHighWater_stop _ _⟩

lemma SlotsOk.install (h : SlotsOk t) {m : OfferManifest} (hm : m.highWaterSlots ≤ maxRemoteSlots)
    (hgens : ∀ i, m.assignmentGenerations i ≤ t.nextAssignmentGeneration) :
    SlotsOk (remoteOfferInstall t m).1 := by
  have hgood := good_install h.good hm
  rcases install_cases t m with heq | ⟨-, -, -, heq⟩
  · rw [heq]
    exact h
  rw [heq] at hgood ⊢
  refine ⟨hgood, ?_, h.top.imp_right fun hstop => ?_⟩
  · rintro m' ⟨⟩
    exact ⟨le_max_right _ _, hgens⟩
  -- what the old offer held up is below the floor
  rw [retireStop_iff] at hstop ⊢
  rcases hstop with hstate | happlied | ⟨old, hold, hlt, -⟩ | hfloor
  · refine .inl ?_
    dsimp only
    unfold installSlot
    split_ifs
    · exact SlotState.noConfusion
    · exact hstate
    · exact hstate
  · exact .inr (.inl happlied)
  · exact .inr (.inr (.inr (lt_max_of_lt_left (hlt.trans_le (h.offered old hold).1))))
  · exact .inr (.inr (.inr (lt_max_of_lt_left hfloor)))

lemma SlotsOk.applyAnswer (h : SlotsOk t) (m : OfferManifest) :
    SlotsOk (remoteOfferApplyAnswer t m).1 := by
  have hgood := good_applyAnswer h.good m
  rcases applyAnswer_cases t m with heq | ⟨-, -, -, heq⟩
  · rw [heq]
    exact h
  rw [heq] at hgood ⊢
  refine ⟨hgood, fun m' hm' => ?_, ?_⟩
  · cases hm'
  refine (shrinkHighWater_stop (t.answered m).answerStop t.highWaterSlots).imp_right ?_
  intro hstop
  rw [retireStop_iff]
  unfold SlotTable.answerStop at hstop
  rw [Bool.or_eq_true, decide_eq_true_eq, decide_eq_true_eq] at hstop
  exact hstop.imp_right .inl

/-- Captured manifests only know generations given out. -/
structure World.Kept (w : World) : Prop where
  good : w.Good
  slots : SlotsOk w.table
  captured : ∀ m ∈ w.captured, ∀ i, m.assignmentGenerations i ≤ w.made

lemma World.Kept.step {w : World} (h : World.Kept w) (op : RemoteSlots.Op)
    (hlt : (RemoteSlots.step w op).made < 2 ^ 64) : World.Kept (RemoteSlots.step w op) := by
  have hgood := world_good_step h.good op hlt
  have hold : ∀ m ∈ w.captured, ∀ i, m.assignmentGenerations i ≤ (RemoteSlots.step w op).made :=
    fun m hm i => (h.captured m hm i).trans (made_le_step w op)
  have hcounter := h.good.counter
  cases op with
  | reserve userId peerId =>
    refine ⟨hgood, ?_, hold⟩
    dsimp only [RemoteSlots.step] at hlt ⊢
    rcases reserve_cases w.table userId peerId with
      ⟨heq, -⟩ | ⟨j, hfree, hnone, -, hfresh, heq⟩ <;> rw [heq]
    · exact h.slots
    · rw [if_pos hfresh, ← hcounter] at hlt
      exact h.slots.assign (freeSlot_spec hfree).1 (freeSlot_spec hfree).2 hnone hlt
  | retire slot generation => exact ⟨hgood, h.slots.retire slot generation, hold⟩
  | capture =>
    have hok := good_capture h.slots.good w.captured.length
    refine ⟨hgood, ⟨hok, h.slots.offered, h.slots.top⟩, fun m hm i => ?_⟩
    rcases mem_append.1 hm with hin | hnew
    · exact hold m hin i
    · rw [mem_singleton.1 hnew]
      have hgen := h.slots.good.gen_le i
      dsimp only [remoteOfferCapture, SlotTable.manifest, RemoteSlots.step]
      split_ifs <;> omega
  | install k =>
    cases hk : w.captured[k]? with
    | none =>
      simp only [RemoteSlots.step, hk]
      exact h
    | some m =>
      have hm := mem_of_getElem? hk
      simp only [RemoteSlots.step, hk] at hgood hold ⊢
      exact ⟨hgood, h.slots.install (h.good.captured m hm) (hcounter ▸ h.captured m hm), hold⟩
  | applyAnswer k =>
    cases hk : w.captured[k]? with
    | none =>
      simp only [RemoteSlots.step, hk]
      exact h
    | some m =>
      simp only [RemoteSlots.step, hk] at hgood hold ⊢
      exact ⟨hgood, h.slots.applyAnswer m, hold⟩
  | teardown =>
    refine ⟨hgood, ⟨good_teardown h.slots.good, fun m hm => ?_, .inl rfl⟩, hold⟩
    cases hm

/-- **Every table that is reached** is in order, as long as its counter has not wrapped. -/
theorem slotsOk_run {ops : List RemoteSlots.Op} (hb : (RemoteSlots.run ops).made < 2 ^ 64) :
    SlotsOk (RemoteSlots.run ops).table := by
  have hinit : World.Kept .init := ⟨world_good_init, slotsOk_init, by simp [World.init]⟩
  have hkept : World.Kept (RemoteSlots.run ops) :=
    Runs.run_inv_budget RemoteSlots.step (I := World.Kept) made_le_step
      (fun _ op h hlt => h.step op hlt) hinit hb
  exact hkept.slots

/-- The slot of an installed offer is retired and kept. -/
theorem slotsOk_run_retired : SlotsOk (RemoteSlots.run
    [.reserve 7 1, .reserve 8 2, .capture, .install 0, .retire 1 2]).table :=
  slotsOk_run (by decide +kernel)

lemma Seated.length_others_le {g : Graph} (h : Seated g) (p : SessionId) :
    (g.others p).length ≤ roomMaxPeers := by
  calc (g.others p).length ≤ g.members.length := length_filter_le ..
    _ ≤ (List.range g.room.peerCapacity).length := length_filterMap_le ..
    _ = roomMaxPeers := by rw [length_range, h.capacity]

/-- **Admission is all or nothing.** In a coherent room, when adding a peer returns anything but
`ok`, whichever reservation, allocation or check failed, the room, the event queue, all
snapshots, bundles, slots and applied generations are what they were; only counters and
high-water marks may have risen. -/
theorem admission_all_or_nothing {g : Graph} (hg : Coherent g)
    (hslots : ∀ p, SlotsOk (g.session p).remoteSlots) (peer : SessionId)
    (hids : ∀ q, g.Member q → q ≠ peer → (g.session q).peerId ≠ (g.session peer).peerId)
    (hspare : ∀ p, (g.session p).remoteSlots.nextAssignmentGeneration + roomMaxPeers < 2 ^ 64)
    (o : AddOutcome) (hfail : (g.addPeerResult peer o).2 ≠ .ok) :
    let g' := (g.addPeerResult peer o).1
    g'.room = g.room ∧ g'.queue = g.queue ∧
      ∀ p, ∃ t, Restored (g.session p).remoteSlots t ∧
        g'.session p = { g.session p with remoteSlots := t } := by
  rcases addPeerResult_cases g peer o with ⟨heq, -⟩ | ⟨hroom, -, heq⟩ |
    ⟨slot, rest, h, rs, links, receivers, fanout, ps, queue, -, -, -, -, heq⟩
  · rw [heq]
    exact alike_refl undoing_restored
  · rw [heq]
    apply alike_undo_links undoing_restored (hg.linkable hroom hids)
    intro q
    refine ⟨hslots q, ?_⟩
    have hle := hg.seated.length_others_le peer
    rw [hg.seated.targets_eq]
    have hq := hspare q
    omega
  · rw [heq] at hfail
    exact absurd rfl hfail

def oneMember : Graph := (newRoom.addPeerResult 1 .well).1

lemma oneMember_slots (p : SessionId) : (oneMember.session p).remoteSlots = .init := by
  have htargets : newRoom.targets 1 = [] := by decide +kernel
  have hfree : newRoom.room.freeSlots = 0 :: List.range' 1 299 := by decide +kernel
  have hqueue : reserveMembershipEvent newRoom.queue = some ⟨true, 0, 1⟩ := rfl
  unfold oneMember Graph.addPeerResult
  rw [if_neg (by decide), if_neg (by decide), hfree]
  dsimp only
  rw [if_neg (by decide), htargets]
  dsimp only [Graph.reserveLinks]
  rw [hqueue]
  by_cases hp : p = 1
  · rw [hp]
    rfl
  · simp [Graph.prepare, Graph.prepareLinks, AddOutcome.well, Graph.commitPeer, modify_of_ne hp]
    rfl

/-- The second peer's slots are reserved on both sides when the member's bundle cannot be
allocated. -/
theorem admission_all_or_nothing_second :
    let o := { AddOutcome.well with targetFanout := fun _ => false }
    (oneMember.addPeerResult 2 o).2 ≠ .ok ∧
      (oneMember.addPeerResult 2 o).1.room = oneMember.room := by
  intro o
  have hfail : (oneMember.addPeerResult 2 o).2 ≠ .ok := by decide +kernel
  have hfresh : Fresh newRoom := ⟨⟨7, rfl⟩, fun p => ⟨rfl, rfl, rfl, rfl, rfl⟩⟩
  have hrunning : Running oneMember := hfresh.running.step (.addPeer 1 .well) (by decide +kernel)
  have hids : ∀ q ∈ oneMember.members, q ≠ 2 →
      (oneMember.session q).peerId ≠ (oneMember.session 2).peerId := by decide +kernel
  refine ⟨hfail, (admission_all_or_nothing hrunning.coherent ?_ 2 ?_ ?_ o hfail).1⟩
  · intro p
    rw [oneMember_slots]
    exact slotsOk_init
  · intro q hq
    exact hids q (hrunning.coherent.seated.mem_members.2 hq)
  · intro p
    rw [oneMember_slots]
    decide

end MezonSfu.RoomGraph
