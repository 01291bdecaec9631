import MezonSfu.RemoteSlots

/-!
The life of a remote slot is safe: what an answer applied is always the current assignment of
its slot, so a slot is not given to a second publisher while the first one is still applied.
-/

namespace MezonSfu.RemoteSlots

open List

/-! ### The parts of the operations -/

@[simp] lemma zero_state : RemoteSlot.zero.state = .free := rfl
@[simp] lemma zero_assignmentGeneration : RemoteSlot.zero.assignmentGeneration = 0 := rfl

lemma nextNonzero_eq {c : ℕ} (h : c + 1 < 2 ^ 64) : remoteSlotNextNonzero c = c + 1 := by
  unfold remoteSlotNextNonzero
  rw [Nat.mod_eq_of_lt h]
  simp

lemma nextNonzero_ne_zero (c : ℕ) : remoteSlotNextNonzero c ≠ 0 := by
  unfold remoteSlotNextNonzero
  split <;> simp_all

variable {g i offered peerId slot : ℕ} {r : RemoteSlot} {userId : ℤ} {t : SlotTable}
  {m : OfferManifest}

lemma carries_iff :
    r.carries userId peerId ↔
      r.state = .active ∧ r.publisherPeerId = peerId ∧ r.publisherUserId = userId := by
  simp [RemoteSlot.carries, and_assoc]

lemma existingSlot_spec (h : t.existingSlot userId peerId = some i) :
    i < maxRemoteSlots ∧ (t.slots i).carries userId peerId := by
  exact ⟨mem_range.1 (mem_of_find?_eq_some h), by simpa using List.find?_some h⟩

lemma existingSlot_none (h : t.existingSlot userId peerId = none) (hi : i < maxRemoteSlots) :
    ¬ (t.slots i).carries userId peerId :=
  List.find?_eq_none.1 h i (mem_range.2 hi)

lemma freeSlot_spec (h : t.freeSlot = some i) : i < maxRemoteSlots ∧ (t.slots i).state = .free := by
  exact ⟨mem_range.1 (mem_of_find?_eq_some h), by simpa using List.find?_some h⟩

lemma shrinkHighWater_le (stop : ℕ → Bool) (n : ℕ) : shrinkHighWater stop n ≤ n := by
  induction n with
  | zero => exact le_rfl
  | succ n ih =>
    unfold shrinkHighWater
    split
    · exact le_rfl
    · exact ih.trans (Nat.le_succ n)

lemma shrinkHighWater_passed {stop : ℕ → Bool} {n : ℕ} (h : shrinkHighWater stop n ≤ i)
    (hi : i < n) : stop i = false := by
  induction n with
  | zero => omega
  | succ n ih =>
    unfold shrinkHighWater at h
    split at h
    · omega
    · rename_i hstop
      rcases Nat.lt_succ_iff_lt_or_eq.1 hi with hlt | rfl
      · exact ih h hlt
      · simpa using hstop

section

variable (t : SlotTable)

lemma reserve_cases (userId : ℤ) (peerId : ℕ) :
    let r := remoteSlotReserve t userId peerId
    (r.1 = t ∧ t.reservesFresh userId peerId = false) ∨
    ∃ i, t.freeSlot = some i ∧ t.existingSlot userId peerId = none ∧ peerId ≠ 0 ∧
      t.reservesFresh userId peerId ∧ r.1 = t.assign i userId peerId := by
  by_cases hp : peerId = 0
  · exact .inl (by simp [remoteSlotReserve, SlotTable.reservesFresh, hp])
  cases he : t.existingSlot userId peerId with
  | some i => exact .inl (by simp [remoteSlotReserve, SlotTable.reservesFresh, hp, he])
  | none =>
    cases hf : t.freeSlot with
    | none => exact .inl (by simp [remoteSlotReserve, SlotTable.reservesFresh, hp, he, hf])
    | some i =>
      exact .inr ⟨i, rfl, rfl, hp, by simp [SlotTable.reservesFresh, hp, he, hf],
        by simp [remoteSlotReserve, hp, he, hf]⟩

lemma retire_cases (slot generation : ℕ) :
    remoteSlotRetire t slot generation = (t, false) ∨
    (slot < maxRemoteSlots ∧ generation ≠ 0 ∧ (t.slots slot).state = .active ∧
      (t.slots slot).assignmentGeneration = generation ∧
      ((t.offers slot generation ∧
          remoteSlotRetire t slot generation = (t.setState slot .retiringOffered, true)) ∨
        (t.offers slot generation = false ∧ t.applied slot = generation ∧
          remoteSlotRetire t slot generation = (t.setState slot .retiring, true)) ∨
        (t.offers slot generation = false ∧ t.applied slot ≠ generation ∧
          remoteSlotRetire t slot generation = (t.freeRetired slot, true)))) := by
  by_cases hb : maxRemoteSlots ≤ slot ∨ generation = 0
  · exact .inl (by simp [remoteSlotRetire, hb])
  by_cases hm : (t.slots slot).state = .active ∧ (t.slots slot).assignmentGeneration = generation
  · rw [not_or, not_le] at hb
    refine .inr ⟨hb.1, hb.2, hm.1, hm.2, ?_⟩
    have hb' : ¬ (maxRemoteSlots ≤ slot ∨ generation = 0) := by
      rw [not_or, not_le]; exact hb
    unfold remoteSlotRetire
    rw [if_neg hb', if_pos hm]
    cases ho : t.offers slot generation with
    | true => exact .inl ⟨rfl, by simp⟩
    | false =>
      by_cases ha : t.applied slot = generation
      · exact .inr (.inl ⟨rfl, ha, by simp [ha]⟩)
      · exact .inr (.inr ⟨rfl, ha, by simp [ha]⟩)
  · exact .inl (by simp only [remoteSlotRetire, if_neg hb, if_neg hm])

lemma install_cases (m : OfferManifest) :
    remoteOfferInstall t m = (t, false) ∨
    (m.offerGeneration ≠ 0 ∧ t.superseded m = false ∧ t.installable m ∧
      remoteOfferInstall t m = ({ t with
        slots := fun i => if i < t.highWaterSlots then installSlot m i (t.slots i) else t.slots i
        offeredManifest := some m
        offeredSlotFloor := max t.offeredSlotFloor m.highWaterSlots }, true)) := by
  unfold remoteOfferInstall
  by_cases hg : m.offerGeneration = 0
  · simp [hg]
  · cases hs : t.superseded m <;> cases hi : t.installable m <;> simp [hg]

lemma applyAnswer_cases (m : OfferManifest) :
    remoteOfferApplyAnswer t m = (t, false) ∨
    (m.offerGeneration ≠ 0 ∧ t.offeredManifest.map OfferManifest.addr = some m.addr ∧
      t.answerable m ∧
      remoteOfferApplyAnswer t m = ({ t.answered m with
        highWaterSlots := shrinkHighWater (t.answered m).answerStop t.highWaterSlots
        offeredManifest := none }, true)) := by
  unfold remoteOfferApplyAnswer
  by_cases hg : m.offerGeneration = 0
  · simp [hg]
  · by_cases ho : t.offeredManifest.map OfferManifest.addr = some m.addr
    · cases ha : t.answerable m <;> simp [hg, ho]
    · simp [hg, ho]

end

lemma answerable_spec (h : t.answerable m) (ho : m.offered i ≠ 0) :
    (t.slots i).assignmentGeneration = m.offered i := by
  unfold OfferManifest.offered at ho ⊢
  split at ho
  · rename_i hi
    have := all_eq_true.1 h i (mem_range.2 hi)
    simp_all
  · exact absurd rfl ho

def Keeps (r r' : RemoteSlot) : Prop :=
  r.state ≠ .free ∧ r'.state ≠ .free ∧ r'.assignmentGeneration = r.assignmentGeneration ∧
    r'.publisherUserId = r.publisherUserId ∧ r'.publisherPeerId = r.publisherPeerId ∧
    (r'.state = .active → r.state = .active)

lemma Keeps.refl (h : r.state ≠ .free) : Keeps r r := ⟨h, h, rfl, rfl, rfl, id⟩

/-- The slots agree with the applied generations, with the counter and with the high-water
mark. -/
structure Good (t : SlotTable) : Prop where
  applied_current : ∀ i, t.applied i ≠ 0 →
    (t.slots i).state ≠ .free ∧ (t.slots i).assignmentGeneration = t.applied i
  free_zero : ∀ i, (t.slots i).state = .free → t.slots i = .zero
  gen_ne_zero : ∀ i, (t.slots i).state ≠ .free → (t.slots i).assignmentGeneration ≠ 0
  gen_le : ∀ i, (t.slots i).assignmentGeneration ≤ t.nextAssignmentGeneration
  gen_inj : ∀ i j, (t.slots i).state ≠ .free → (t.slots j).state ≠ .free →
    (t.slots i).assignmentGeneration = (t.slots j).assignmentGeneration → i = j
  active_inj : ∀ i j, (t.slots i).state = .active → (t.slots j).state = .active →
    (t.slots i).publisherUserId = (t.slots j).publisherUserId →
    (t.slots i).publisherPeerId = (t.slots j).publisherPeerId → i = j
  above : ∀ i, t.highWaterSlots ≤ i → (t.slots i).state = .free ∧ t.applied i = 0
  highWater_le : t.highWaterSlots ≤ maxRemoteSlots
  floor_le : t.offeredSlotFloor ≤ maxRemoteSlots

lemma Good.free_applied (h : Good t) (hi : (t.slots i).state = .free) : t.applied i = 0 := by
  by_contra ha
  exact (h.applied_current i ha).1 hi

lemma good_init : Good .init := by
  constructor <;> simp [SlotTable.init, RemoteSlot.zero]

lemma Good.of_keeps {t' : SlotTable} (h : Good t)
    (hslots : ∀ i, t'.slots i = .zero ∨ Keeps (t.slots i) (t'.slots i))
    (happlied : ∀ i, t'.applied i ≠ 0 →
      (t'.slots i).state ≠ .free ∧ (t'.slots i).assignmentGeneration = t'.applied i)
    (hnext : t'.nextAssignmentGeneration = t.nextAssignmentGeneration)
    (habove : ∀ i, t'.highWaterSlots ≤ i → (t'.slots i).state = .free ∧ t'.applied i = 0)
    (hhw : t'.highWaterSlots ≤ maxRemoteSlots) (hfloor : t'.offeredSlotFloor ≤ maxRemoteSlots) :
    Good t' := by
  -- a slot in use now was in use before, under the same assignment
  have hkeep : ∀ i, (t'.slots i).state ≠ .free → Keeps (t.slots i) (t'.slots i) := by
    intro i hi
    rcases hslots i with h0 | hk
    · simp [h0] at hi
    · exact hk
  refine ⟨happlied, ?_, ?_, ?_, ?_, ?_, habove, hhw, hfloor⟩
  · intro i hi
    rcases hslots i with h0 | hk
    · exact h0
    · exact absurd hi hk.2.1
  · intro i hi
    obtain ⟨hold, -, hgen, -⟩ := hkeep i hi
    rw [hgen]
    exact h.gen_ne_zero i hold
  · intro i
    rcases hslots i with h0 | ⟨-, -, hgen, -⟩
    · simp [h0]
    · rw [hgen, hnext]
      exact h.gen_le i
  · intro i j hi hj hij
    obtain ⟨hi', -, hgi, -⟩ := hkeep i hi
    obtain ⟨hj', -, hgj, -⟩ := hkeep j hj
    exact h.gen_inj i j hi' hj' (by rw [← hgi, ← hgj, hij])
  · intro i j hi hj hu hp
    obtain ⟨-, -, -, hui, hpi, hai⟩ := hkeep i (by simp [hi])
    obtain ⟨-, -, -, huj, hpj, haj⟩ := hkeep j (by simp [hj])
    exact h.active_inj i j (hai hi) (haj hj) (by rw [← hui, ← huj, hu]) (by rw [← hpi, ← hpj, hp])

/-! ### Each operation keeps it -/

lemma good_assign (h : Good t) (hi : i < maxRemoteSlots) (hfree : (t.slots i).state = .free)
    (hnone : t.existingSlot userId peerId = none) (hc : t.nextAssignmentGeneration + 1 < 2 ^ 64) :
    Good (t.assign i userId peerId) := by
  have hgen := nextNonzero_eq hc
  have hnew : ∀ j, (t.slots j).assignmentGeneration ≠ t.nextAssignmentGeneration + 1 := by
    intro j
    have := h.gen_le j
    omega
  have hcase : ∀ j, (j = i ∧ (t.assign i userId peerId).slots j =
        ⟨.active, userId, peerId, t.nextAssignmentGeneration + 1⟩) ∨
      (j ≠ i ∧ (t.assign i userId peerId).slots j = t.slots j) := by
    intro j
    rcases eq_or_ne j i with rfl | hj
    · exact .inl ⟨rfl, by simp [SlotTable.assign, hgen]⟩
    · exact .inr ⟨hj, by simp [SlotTable.assign, hj]⟩
  have hfresh : ∀ j, (t.slots j).state = .active → ¬ ((t.slots j).publisherUserId = userId ∧
      (t.slots j).publisherPeerId = peerId) := by
    intro j hj hsame
    have hlt : j < maxRemoteSlots := by
      by_contra hge
      have := (h.above j (by have := h.highWater_le; omega)).1
      simp [this] at hj
    exact existingSlot_none hnone hlt (carries_iff.2 ⟨hj, hsame.2, hsame.1⟩)
  have hnext : (t.assign i userId peerId).nextAssignmentGeneration =
      t.nextAssignmentGeneration + 1 := hgen
  refine ⟨?_, ?_, ?_, ?_, ?_, ?_, ?_, ?_, h.floor_le⟩
  · intro j hj
    obtain ⟨rfl, -⟩ | ⟨-, hs⟩ := hcase j
    · exact absurd (h.free_applied hfree) hj
    · rw [hs]
      exact h.applied_current j hj
  · intro j hj
    obtain ⟨-, hs⟩ | ⟨-, hs⟩ := hcase j <;> rw [hs] at hj ⊢
    · cases hj
    · exact h.free_zero j hj
  · intro j hj
    obtain ⟨-, hs⟩ | ⟨-, hs⟩ := hcase j <;> rw [hs] at hj ⊢
    · exact Nat.succ_ne_zero _
    · exact h.gen_ne_zero j hj
  · intro j
    rw [hnext]
    obtain ⟨-, hs⟩ | ⟨-, hs⟩ := hcase j <;> rw [hs]
    exact (h.gen_le j).trans (Nat.le_succ _)
  · intro j k hj hk hjk
    obtain ⟨hji, hsj⟩ | ⟨-, hsj⟩ := hcase j <;> obtain ⟨hki, hsk⟩ | ⟨-, hsk⟩ := hcase k <;>
      rw [hsj, hsk] at hjk
    · rw [hji, hki]
    · exact absurd hjk.symm (hnew k)
    · exact absurd hjk (hnew j)
    · exact h.gen_inj j k (hsj ▸ hj) (hsk ▸ hk) hjk
  · intro j k hj hk hu hp
    obtain ⟨hji, hsj⟩ | ⟨-, hsj⟩ := hcase j <;> obtain ⟨hki, hsk⟩ | ⟨-, hsk⟩ := hcase k <;>
      rw [hsj, hsk] at hu hp
    · rw [hji, hki]
    · exact absurd ⟨hu.symm, hp.symm⟩ (hfresh k (hsk ▸ hk))
    · exact absurd ⟨hu, hp⟩ (hfresh j (hsj ▸ hj))
    · exact h.active_inj j k (hsj ▸ hj) (hsk ▸ hk) hu hp
  · intro j hj
    have hji : j ≠ i ∧ t.highWaterSlots ≤ j := by
      simp only [SlotTable.assign] at hj
      split at hj <;> omega
    rw [((hcase j).resolve_left fun heq => hji.1 heq.1).2]
    exact h.above j hji.2
  · have := h.highWater_le
    simp only [SlotTable.assign]
    split <;> omega

lemma good_setState (h : Good t) {s : SlotState} (hactive : (t.slots slot).state = .active)
    (hfree : s ≠ .free) : Good (t.setState slot s) := by
  have hslot : ∀ i, (t.slots i).state ≠ .free →
      Keeps (t.slots i) ((t.setState slot s).slots i) := by
    intro i hi
    by_cases his : i = slot
    · subst his
      simp [SlotTable.setState, Keeps, hactive, hfree]
    · simpa [SlotTable.setState, his] using Keeps.refl hi
  have hsame : ∀ i, (t.slots i).state = .free → (t.setState slot s).slots i = t.slots i := by
    intro i hi
    have his : i ≠ slot := by
      rintro rfl
      simp [hactive] at hi
    simp [SlotTable.setState, his]
  refine h.of_keeps ?_ ?_ rfl ?_ h.highWater_le h.floor_le
  · intro i
    by_cases hi : (t.slots i).state = .free
    · exact .inl ((hsame i hi).trans (h.free_zero i hi))
    · exact .inr (hslot i hi)
  · intro i hi
    obtain ⟨hf, hg⟩ := h.applied_current i hi
    obtain ⟨-, hf', hg', -⟩ := hslot i hf
    exact ⟨hf', hg'.trans hg⟩
  · intro i hi
    obtain ⟨hf, ha⟩ := h.above i hi
    exact ⟨by rw [hsame i hf]; exact hf, ha⟩

lemma good_freeRetired (h : Good t)
    (happlied : t.applied slot ≠ (t.slots slot).assignmentGeneration) :
    Good (t.freeRetired slot) := by
  have hzero : t.applied slot = 0 := by
    by_contra ha
    exact happlied (h.applied_current slot ha).2.symm
  have hself : (t.freeRetired slot).slots slot = .zero := by simp [SlotTable.freeRetired]
  have hother : ∀ i ≠ slot, (t.freeRetired slot).slots i = t.slots i := by
    intro i hi
    simp [SlotTable.freeRetired, hi]
  have hle : (t.freeRetired slot).highWaterSlots ≤ t.highWaterSlots := shrinkHighWater_le _ _
  refine h.of_keeps ?_ ?_ rfl ?_ (hle.trans h.highWater_le) h.floor_le
  · intro i
    by_cases his : i = slot
    · exact .inl (his ▸ hself)
    · by_cases hi : (t.slots i).state = .free
      · exact .inl ((hother i his).trans (h.free_zero i hi))
      · exact .inr (by rw [hother i his]; exact Keeps.refl hi)
  · intro i hi
    have his : i ≠ slot := by
      rintro rfl
      exact hi hzero
    rw [hother i his]
    exact h.applied_current i hi
  · intro i hi
    by_cases hlt : i < t.highWaterSlots
    · -- the loop has passed this index, so it found it free and not applied
      have hstop := shrinkHighWater_passed hi hlt
      simp only [SlotTable.retireStop, Bool.or_eq_false_iff] at hstop
      simp only [ne_eq, decide_not, Bool.not_eq_eq_eq_not, Bool.not_false,
        decide_eq_true_eq] at hstop
      exact hstop.1.1
    · obtain ⟨hf, ha⟩ := h.above i (by omega)
      by_cases his : i = slot
      · exact ⟨by rw [his, hself]; rfl, ha⟩
      · exact ⟨by rw [hother i his]; exact hf, ha⟩

lemma good_retire (h : Good t) (slot generation : ℕ) :
    Good (remoteSlotRetire t slot generation).1 := by
  rcases retire_cases t slot generation with
    heq | ⟨-, -, hactive, hgen, ⟨-, heq⟩ | ⟨-, -, heq⟩ | ⟨-, happlied, heq⟩⟩
  · rw [heq]; exact h
  · rw [heq]; exact good_setState h hactive (by simp)
  · rw [heq]; exact good_setState h hactive (by simp)
  · rw [heq]; exact good_freeRetired h (by rw [hgen]; exact happlied)

lemma installSlot_free (h : r.state = .free) : installSlot m i r = r := by
  simp [installSlot, h]

lemma installSlot_keeps (h : r.state ≠ .free) : Keeps r (installSlot m i r) := by
  unfold installSlot
  split
  · simp [Keeps, h]
  · exact Keeps.refl h

lemma good_install (h : Good t) (hm : m.highWaterSlots ≤ maxRemoteSlots) :
    Good (remoteOfferInstall t m).1 := by
  rcases install_cases t m with heq | ⟨-, -, -, heq⟩
  · rw [heq]; exact h
  rw [heq]
  refine h.of_keeps ?_ ?_ rfl ?_ h.highWater_le (max_le h.floor_le hm)
  · intro i
    by_cases hi : (t.slots i).state = .free
    · refine .inl ?_
      dsimp only
      rw [installSlot_free hi, ite_self]
      exact h.free_zero i hi
    · refine .inr ?_
      dsimp only
      split
      · exact installSlot_keeps hi
      · exact Keeps.refl hi
  · intro i hi
    obtain ⟨hf, hg⟩ := h.applied_current i hi
    dsimp only
    split
    · obtain ⟨-, hf', hg', -⟩ := installSlot_keeps (m := m) (i := i) hf
      exact ⟨hf', hg'.trans hg⟩
    · exact ⟨hf, hg⟩
  · intro i hi
    obtain ⟨hf, ha⟩ := h.above i hi
    exact ⟨by simp [installSlot_free hf, hf], ha⟩

lemma answerSlot_keeps (h : r.state ≠ .free) (ho : offered ≠ 0) :
    Keeps r (answerSlot offered r) := by
  unfold answerSlot
  split
  · simp [Keeps, h]
  · exact Keeps.refl h

lemma answerSlot_zero_or_keeps (h : r.state = .free → r = .zero) :
    answerSlot offered r = .zero ∨ Keeps r (answerSlot offered r) := by
  by_cases hf : r.state = .free
  · exact .inl (by simp [answerSlot, h hf])
  by_cases ho : offered = 0
  · unfold answerSlot
    split
    · exact .inl (by simp)
    · exact .inr (Keeps.refl hf)
  · exact .inr (answerSlot_keeps hf ho)

lemma good_answered (h : Good t) (ha : t.answerable m) : Good (t.answered m) := by
  refine h.of_keeps ?_ ?_ rfl ?_ h.highWater_le h.floor_le
  · intro i
    dsimp only [SlotTable.answered]
    split
    · exact answerSlot_zero_or_keeps (h.free_zero i)
    · by_cases hi : (t.slots i).state = .free
      · exact .inl (h.free_zero i hi)
      · exact .inr (Keeps.refl hi)
  · intro i hi
    dsimp only [SlotTable.answered] at hi ⊢
    split at hi
    · rename_i hlt
      have hgen := answerable_spec ha hi
      -- a generation that is offered is not that of a free slot
      have hf : (t.slots i).state ≠ .free := by
        intro hfree
        rw [h.free_zero i hfree] at hgen
        exact hi hgen.symm
      obtain ⟨-, hf', hg', -⟩ := answerSlot_keeps hf hi
      rw [if_pos hlt, if_pos hlt]
      exact ⟨hf', hg'.trans hgen⟩
    · rename_i hge
      rw [if_neg hge, if_neg hge]
      exact h.applied_current i hi
  · intro i hi
    have hge : ¬ i < t.highWaterSlots := not_lt.2 hi
    simp only [SlotTable.answered, if_neg hge]
    exact h.above i hi

lemma good_applyAnswer (h : Good t) (m : OfferManifest) : Good (remoteOfferApplyAnswer t m).1 := by
  rcases applyAnswer_cases t m with heq | ⟨-, -, ha, heq⟩
  · rw [heq]; exact h
  rw [heq]
  have hg := good_answered h ha
  refine { hg with above := ?_, highWater_le := ?_ }
  · intro i hi
    by_cases hlt : i < t.highWaterSlots
    · have hstop := shrinkHighWater_passed hi hlt
      simpa [SlotTable.answerStop] using hstop
    · exact hg.above i (not_lt.1 hlt)
  · exact (shrinkHighWater_le _ _).trans h.highWater_le

lemma good_teardown (h : Good t) : Good (remoteSlotsTeardown t) :=
  h.of_keeps (fun _ => .inl rfl) (fun _ hi => absurd rfl hi) rfl (fun _ _ => ⟨rfl, rfl⟩)
    (Nat.zero_le _) (Nat.zero_le _)

lemma good_capture (h : Good t) (addr : ℕ) : Good (remoteOfferCapture t addr).1 := { h with }

lemma manifest_highWater_le (h : Good t) (addr : ℕ) :
    (t.manifest addr).highWaterSlots ≤ maxRemoteSlots := by
  have h1 := h.highWater_le
  have h2 := h.floor_le
  simp only [SlotTable.manifest]
  split <;> assumption

/-! ### Runs -/

/-- The invariant of a run in which fewer than `2 ^ 64` generations were given out. -/
structure World.Good (w : World) : Prop where
  table : RemoteSlots.Good w.table
  counter : w.table.nextAssignmentGeneration = w.made
  captured : ∀ m ∈ w.captured, m.highWaterSlots ≤ maxRemoteSlots

lemma world_good_init : World.init.Good := ⟨good_init, rfl, by simp [World.init]⟩

lemma made_le_step (w : World) (op : Op) : w.made ≤ (step w op).made := by
  cases op with
  | reserve userId peerId => simp only [step]; split <;> omega
  | retire | capture => exact le_rfl
  | install | applyAnswer => simp only [step]; split <;> exact le_rfl
  | teardown => exact le_rfl

lemma retire_nextAssignmentGeneration (t : SlotTable) (slot generation : ℕ) :
    (remoteSlotRetire t slot generation).1.nextAssignmentGeneration =
      t.nextAssignmentGeneration := by
  rcases retire_cases t slot generation with
    heq | ⟨-, -, -, -, ⟨-, heq⟩ | ⟨-, -, heq⟩ | ⟨-, -, heq⟩⟩ <;> rw [heq] <;> rfl

lemma install_nextAssignmentGeneration (t : SlotTable) (m : OfferManifest) :
    (remoteOfferInstall t m).1.nextAssignmentGeneration = t.nextAssignmentGeneration := by
  rcases install_cases t m with heq | ⟨-, -, -, heq⟩ <;> rw [heq]

lemma applyAnswer_nextAssignmentGeneration (t : SlotTable) (m : OfferManifest) :
    (remoteOfferApplyAnswer t m).1.nextAssignmentGeneration = t.nextAssignmentGeneration := by
  rcases applyAnswer_cases t m with heq | ⟨-, -, -, heq⟩ <;> rw [heq]
  rfl

lemma world_good_step {w : World} (h : w.Good) (op : Op) (hb : (step w op).made < 2 ^ 64) :
    (step w op).Good := by
  obtain ⟨ht, hc, hm⟩ := h
  cases op with
  | reserve userId peerId =>
    rcases reserve_cases w.table userId peerId with
      ⟨heq, hfresh⟩ | ⟨i, hfree, hnone, -, hfresh, heq⟩
    · refine ⟨?_, ?_, hm⟩ <;> simp only [step, heq, hfresh]
      · exact ht
      · exact hc
    have hlt : w.table.nextAssignmentGeneration + 1 < 2 ^ 64 := by
      simp only [step, hfresh, if_true] at hb
      omega
    refine ⟨?_, ?_, hm⟩ <;> simp only [step, heq, hfresh]
    · exact good_assign ht (freeSlot_spec hfree).1 (freeSlot_spec hfree).2 hnone hlt
    · rw [if_pos trivial, ← hc]
      exact nextNonzero_eq hlt
  | retire slot generation =>
    exact ⟨good_retire ht slot generation, (retire_nextAssignmentGeneration _ _ _).trans hc, hm⟩
  | capture =>
    refine ⟨good_capture ht w.captured.length, hc, ?_⟩
    intro m hmem
    simp only [step, mem_append, mem_singleton] at hmem
    rcases hmem with hold | rfl
    · exact hm m hold
    · exact manifest_highWater_le ht _
  | install k =>
    simp only [step]
    cases hk : w.captured[k]? with
    | none => exact ⟨ht, hc, hm⟩
    | some m =>
      exact ⟨good_install ht (hm m (mem_of_getElem? hk)),
        (install_nextAssignmentGeneration _ _).trans hc, hm⟩
  | applyAnswer k =>
    simp only [step]
    cases hk : w.captured[k]? with
    | none => exact ⟨ht, hc, hm⟩
    | some m =>
      exact ⟨good_applyAnswer ht m, (applyAnswer_nextAssignmentGeneration _ _).trans hc, hm⟩
  | teardown => exact ⟨good_teardown ht, hc, hm⟩

theorem world_good_run {ops : List Op} (hb : (run ops).made < 2 ^ 64) : (run ops).Good :=
  Runs.run_inv_budget step (f := World.made) made_le_step
    (fun _ op h hlt => world_good_step h op hlt) world_good_init hb

lemma authorized_current (h : Good t) (ha : remoteSlotAuthorized t i g) :
    (t.slots i).state ≠ .free ∧ (t.slots i).assignmentGeneration = g := by
  simp only [remoteSlotAuthorized, ne_eq, decide_not, Bool.and_eq_true, decide_eq_true_eq,
    Bool.not_eq_eq_eq_not, Bool.not_true, decide_eq_false_iff_not] at ha
  obtain ⟨⟨-, hg⟩, heq⟩ := ha
  obtain ⟨hf, hgen⟩ := h.applied_current i (by rw [heq]; exact hg)
  exact ⟨hf, hgen.trans heq⟩

lemma reserve_unapplied (h : Good t) (hr : (remoteSlotReserve t userId peerId).2 = some (i, g))
    (hnew : (t.slots i).carries userId peerId = false) :
    t.applied i = 0 ∧ (remoteSlotReserve t userId peerId).1.applied i = 0 := by
  unfold remoteSlotReserve at hr ⊢
  split at hr
  · simp at hr
  rename_i hp
  rw [if_neg hp]
  cases he : t.existingSlot userId peerId with
  | some j =>
    simp only [he, Option.some.injEq, Prod.mk.injEq] at hr
    have := (existingSlot_spec he).2
    rw [hr.1, hnew] at this
    exact absurd this (by simp)
  | none =>
    cases hf : t.freeSlot with
    | none => simp [he, hf] at hr
    | some j =>
      simp only [he, hf, Option.some.injEq, Prod.mk.injEq] at hr
      have hz := h.free_applied (freeSlot_spec hf).2
      rw [hr.1] at hz
      exact ⟨hz, hz⟩

/-- **Remote-slot safety**: after any run from the zeroed table, an applied generation is the
current assignment of a slot in use, free slots have nothing applied, the assignments in use are
nonzero and distinct, no publisher has two active slots, and nothing lies above the high-water
mark. So only the current assignment of a slot is ever authorized, and a slot that is handed to
another publisher has nothing applied. -/
theorem remoteSlots_safe (ops : List Op) (hb : (run ops).made < 2 ^ 64) :
    let t := (run ops).table
    (∀ i g, t.applied i = g → g ≠ 0 →
      (t.slots i).state ≠ .free ∧ (t.slots i).assignmentGeneration = g) ∧
    (∀ i, (t.slots i).state = .free → t.applied i = 0) ∧
    (∀ i, (t.slots i).state ≠ .free → (t.slots i).assignmentGeneration ≠ 0) ∧
    (∀ i j, (t.slots i).state ≠ .free → (t.slots j).state ≠ .free → i ≠ j →
      (t.slots i).assignmentGeneration ≠ (t.slots j).assignmentGeneration) ∧
    (∀ i j, (t.slots i).state = .active → (t.slots j).state = .active → i ≠ j →
      ((t.slots i).publisherUserId, (t.slots i).publisherPeerId) ≠
        ((t.slots j).publisherUserId, (t.slots j).publisherPeerId)) ∧
    (∀ i, t.highWaterSlots ≤ i → (t.slots i).state = .free ∧ t.applied i = 0) ∧
    (∀ i g, remoteSlotAuthorized t i g = true →
      (t.slots i).state ≠ .free ∧ (t.slots i).assignmentGeneration = g) ∧
    (∀ userId peerId i g, (remoteSlotReserve t userId peerId).2 = some (i, g) →
      (t.slots i).carries userId peerId = false →
      t.applied i = 0 ∧ (remoteSlotReserve t userId peerId).1.applied i = 0) := by
  intro t
  have h : Good t := (world_good_run hb).table
  refine ⟨?_, fun i hi => h.free_applied hi, h.gen_ne_zero, ?_, ?_, h.above,
    fun i g => authorized_current h, fun userId peerId i g => reserve_unapplied h⟩
  · rintro i g rfl hg
    exact h.applied_current i hg
  · intro i j hi hj hij heq
    exact hij (h.gen_inj i j hi hj heq)
  · intro i j hi hj hij heq
    rw [Prod.mk.injEq] at heq
    exact hij (h.active_inj i j hi hj heq.1 heq.2)

/-- A publisher is answered, retired while its answer stands, and its slot is not reused. -/
theorem remoteSlots_safe_retired :
    let ops := [Op.reserve 7 1, .capture, .install 0, .applyAnswer 0, .retire 0 1, .reserve 8 2]
    (run ops).made < 2 ^ 64 ∧ (run ops).table.applied 0 = 1 ∧
      ((run ops).table.slots 0).state = .retiring ∧
      ((run ops).table.slots 0).assignmentGeneration = 1 := by
  refine ⟨by decide, by decide, by decide, ?_⟩
  exact ((remoteSlots_safe _ (by decide)).1 0 1 (by decide) (by decide)).2

end MezonSfu.RemoteSlots
