import MezonSfu.SubscriberLayers

/-!
Screens before cameras, over a whole snapshot.

The allocator gives no camera anything before the screens it was offered have their preferred
rate. It is offered the first sixteen active streams in the order of the slots, so a screen
behind them is passed over.
-/

namespace MezonSfu.Bandwidth

open RemoteSlots RoomGraph List

variable {c : Config} {pool : ℕ} {streams : List StreamAllocation} {s : StreamAllocation}

variable {b : ℕ} {l : List StreamAllocation} {inputs order : List StreamInput} {x y : StreamInput}
  {present : Bool} {snap : ReceiverSnapshot} {a : Allocation}

lemma sum_screen (l : List StreamAllocation) :
    (l.map fun s => if s.kind = .screen then b else 0).sum =
      l.countP (fun s => s.kind = .screen) * b := by
  induction l with
  | nil => simp
  | cons s l ih =>
    rw [map_cons, sum_cons, countP_cons, ih]
    by_cases hk : s.kind = .screen
    · simp [hk, add_mul, Nat.add_comm]
    · simp [hk]

lemma rateSum_le_countP (h : ∀ s ∈ l, s.allocatedBps ≤ if s.kind = .screen then b else 0) :
    rateSum l ≤ l.countP (fun s => s.kind = .screen) * b := by
  rw [← sum_screen]
  exact sum_le_sum h

lemma rateSum_eq_countP (h : ∀ s ∈ l, s.allocatedBps = if s.kind = .screen then b else 0) :
    rateSum l = l.countP (fun s => s.kind = .screen) * b := by
  rw [← sum_screen]
  exact congrArg sum (map_congr_left h)

lemma countP_screen_of_blank {l' : List StreamAllocation}
    (h : l'.map StreamAllocation.blank = l.map StreamAllocation.blank) :
    l'.countP (fun s => s.kind = .screen) = l.countP fun s => s.kind = .screen := by
  have hmap : ∀ l : List StreamAllocation, l.countP (fun s => s.kind = .screen) =
      (l.map StreamAllocation.blank).countP fun s => s.kind = .screen := by
    intro l
    rw [countP_map]
    rfl
  rw [hmap l', h, ← hmap l]

lemma fillScreens_rest_pos_iff (h : c.Ordered) (hu : Unset streams) :
    0 < (fillScreens c (streams, pool)).2 ↔
      streams.countP (fun s => s.kind = .screen) * c.screenPreferredBps < pool := by
  have htotal := @rateSum_fillScreens c pool streams hu
  have hscreens := @fillScreens_screens c pool streams h hu
  have hothers : ∀ s ∈ (fillScreens c (streams, pool)).1, s.kind ≠ .screen →
      s.allocatedBps = 0 := fun s hs hk => fillScreens_others hu hs hk
  rw [← countP_screen_of_blank (@blank_fillScreens c pool streams)]
  constructor
  · intro hpos
    have heq : rateSum (fillScreens c (streams, pool)).1 = _ :=
      rateSum_eq_countP (b := c.screenPreferredBps) (by
        intro s hs
        split
        · rename_i hk
          exact hscreens.eq hpos hs (mem_streamClass.2 hk)
        · rename_i hk
          exact hothers s hs hk)
    omega
  · intro hlt
    have hle : rateSum (fillScreens c (streams, pool)).1 ≤ _ :=
      rateSum_le_countP (b := c.screenPreferredBps) (by
        intro s hs
        split
        · rename_i hk
          exact hscreens.le hs (mem_streamClass.2 hk)
        · rename_i hk
          exact (hothers s hs hk).le)
    omega

lemma sameStreamKey_comm (x y : StreamInput) : sameStreamKey x y = sameStreamKey y x := by
  unfold sameStreamKey
  simp only [eq_comm]

abbrev Distinct (inputs : List StreamInput) : Prop :=
  inputs.Pairwise fun x y => sameStreamKey x y = false

lemma insertInput_perm (h : order.length < maxStreams) (x : StreamInput) :
    (insertInput order x).Perm (x :: order) := by
  unfold insertInput
  rw [if_neg (fun hc => h.ne hc.1)]
  dsimp only
  rw [if_pos h]
  -- the larger keys are the end of the order
  have hsplit : order = (order.reverse.dropWhile (streamKeyLess x)).reverse ++
      (order.reverse.takeWhile (streamKeyLess x)).reverse := by
    rw [← reverse_append, takeWhile_append_dropWhile, reverse_reverse]
  generalize order.reverse.dropWhile (streamKeyLess x) = smaller at hsplit
  generalize order.reverse.takeWhile (streamKeyLess x) = larger at hsplit
  have hlen : order.length - larger.length = smaller.reverse.length := by
    rw [hsplit, length_append, @length_reverse _ larger, Nat.add_sub_cancel]
  rw [hlen, hsplit, take_left]
  exact perm_middle

lemma selectInputs_perm (hlen : inputs.length ≤ maxStreams) (husable : ∀ x ∈ inputs, x.Usable)
    (hdistinct : Distinct inputs) : (selectInputs inputs).Perm inputs := by
  unfold selectInputs
  induction inputs using List.reverseRecOn with
  | nil => exact .nil
  | append_singleton l x ih =>
    rw [length_append, length_singleton] at hlen
    obtain ⟨hl, -, hx⟩ := pairwise_append.1 hdistinct
    have hperm := ih (by omega) (fun y hy => husable y (mem_append_left _ hy)) hl
    obtain ⟨hactive, hid, hkind⟩ := husable x (mem_append_right _ (.head _))
    rw [foldl_append, foldl_cons, foldl_nil]
    set order := l.foldl considerInput []
    unfold considerInput
    rw [if_neg (by simp [hactive, hid, hkind]), if_neg]
    · refine (insertInput_perm ?_ x).trans ?_
      · rw [hperm.length_eq]
        omega
      · exact (hperm.cons x).trans (perm_append_singleton x l).symm
    · rw [any_eq_true]
      rintro ⟨y, hy, hsame⟩
      rw [sameStreamKey_comm, hx y (hperm.mem_iff.1 hy) x (.head _)] at hsame
      cases hsame

lemma streamsOf_eq_map {prev : Option StreamInput}
    (hprev : ∀ p ∈ prev, ∀ x ∈ order, sameStreamKey x p = false) (hd : Distinct order) :
    streamsOf prev order = order.map StreamInput.stream := by
  induction order generalizing prev with
  | nil => rfl
  | cons x order ih =>
    obtain ⟨hx, hd⟩ := pairwise_cons.1 hd
    unfold streamsOf
    rw [if_neg, ih _ hd, map_cons]
    · intro p hp y hy
      rw [Option.mem_some_iff] at hp
      rw [← hp, sameStreamKey_comm]
      exact hx y hy
    · rw [Option.any_eq_true_iff_get]
      rintro ⟨hsome, hsame⟩
      rw [hprev _ (Option.get_mem hsome) x (.head _)] at hsame
      cases hsame

lemma selectStreams_perm (hlen : inputs.length ≤ maxStreams) (husable : ∀ x ∈ inputs, x.Usable)
    (hdistinct : Distinct inputs) :
    (selectStreams inputs).Perm (inputs.map StreamInput.stream) := by
  have hperm := selectInputs_perm hlen husable hdistinct
  have hd : Distinct (selectInputs inputs) :=
    (hperm.pairwise_iff fun {x y} h => by rw [sameStreamKey_comm]; exact h).2 hdistinct
  unfold selectStreams
  rw [streamsOf_eq_map (fun p hp => absurd hp (Option.not_mem_none p)) hd]
  exact hperm.map _

/-! ### What is offered -/

def entryInputs (x : ℕ × ReceiverEntry) : List StreamInput :=
  if x.2.publisherPeerId = 0 then []
  else
    (if x.2.hasScreen && x.2.screenActive then [screenInput x.1 x.2] else []) ++
      if x.2.hasVideo && x.2.videoActive then [cameraInput x.1 x.2] else []

/-- The first sixteen active streams of a snapshot. -/
def offered (snap : ReceiverSnapshot) : List StreamInput :=
  (snap.entries.flatMap entryInputs).take maxStreams

lemma take_take_append {α : Type*} (n : ℕ) (l m : List α) :
    (l.take n ++ m).take n = (l ++ m).take n := by
  rw [take_append, take_append, take_take, min_self, length_take]
  congr 2
  omega

lemma addInput_eq (h : inputs.length ≤ maxStreams) :
    addInput present x inputs = (inputs ++ if present then [x] else []).take maxStreams := by
  unfold addInput
  cases present
  · rw [Bool.false_and, if_neg Bool.false_ne_true, if_neg Bool.false_ne_true, append_nil,
      take_of_length_le h]
  rw [Bool.true_and, if_pos rfl]
  by_cases hlt : inputs.length < maxStreams
  · rw [if_pos (decide_eq_true hlt), take_of_length_le]
    rw [length_append, length_singleton]
    exact hlt
  · rw [if_neg (by simpa using hlt), take_left']
    omega

lemma length_addInput_le (h : inputs.length ≤ maxStreams) :
    (addInput present x inputs).length ≤ maxStreams := by
  rw [addInput_eq h, length_take]
  exact min_le_left _ _

lemma collectInputs_eq {l : List (ℕ × ReceiverEntry)} (h : inputs.length ≤ maxStreams) :
    collectInputs l inputs = (inputs ++ l.flatMap entryInputs).take maxStreams := by
  induction l generalizing inputs with
  | nil =>
    rw [flatMap_nil, append_nil, take_of_length_le h]
    rfl
  | cons x l ih =>
    obtain ⟨slot, e⟩ := x
    unfold collectInputs
    rw [flatMap_cons]
    by_cases hfull : maxStreams ≤ inputs.length
    · rw [if_pos hfull, take_left']
      omega
    rw [if_neg hfull]
    by_cases hid : e.publisherPeerId = 0
    · rw [if_pos hid, ih h, entryInputs, if_pos hid, nil_append]
    · rw [if_neg hid]
      rw [ih (length_addInput_le (length_addInput_le h)), addInput_eq (length_addInput_le h),
        addInput_eq h, take_take_append, append_assoc, take_take_append, entryInputs, if_neg hid]
      simp only [append_assoc]

lemma layerAllocation_eq (snap : ReceiverSnapshot) (bitrateBps : ℕ) :
    layerAllocation c (some snap) bitrateBps = allocate c (offered snap) bitrateBps := by
  unfold layerAllocation offered
  rw [Option.map_some, Option.getD_some, collectInputs_eq (Nat.zero_le _), nil_append]

lemma mem_entryInputs {x : ℕ × ReceiverEntry} (h : y ∈ entryInputs x) :
    y.Usable ∧ y.remoteSlot = x.1 ∧ (y = screenInput x.1 x.2 ∨ y = cameraInput x.1 x.2) := by
  unfold entryInputs at h
  split at h
  · cases h
  rename_i hid
  rcases mem_append.1 h with h | h
  · split at h
    · rw [mem_singleton.1 h]
      exact ⟨⟨rfl, hid, StreamKind.noConfusion⟩, rfl, .inl rfl⟩
    · cases h
  · split at h
    · rw [mem_singleton.1 h]
      exact ⟨⟨rfl, hid, StreamKind.noConfusion⟩, rfl, .inr rfl⟩
    · cases h

lemma mem_offered (h : y ∈ offered snap) :
    y.Usable ∧ ∃ x ∈ snap.entries, y = screenInput x.1 x.2 ∨ y = cameraInput x.1 x.2 := by
  obtain ⟨x, hx, hy⟩ := mem_flatMap.1 (mem_of_mem_take h)
  obtain ⟨husable, -, heq⟩ := mem_entryInputs hy
  exact ⟨husable, x, hx, heq⟩

lemma distinct_entryInputs (x : ℕ × ReceiverEntry) : Distinct (entryInputs x) := by
  unfold entryInputs
  split
  · exact .nil
  refine pairwise_append.2 ⟨?_, ?_, ?_⟩
  · split
    · exact pairwise_singleton _ _
    · exact .nil
  · split
    · exact pairwise_singleton _ _
    · exact .nil
  · intro y hy z hz
    split at hy
    · split at hz
      · rw [mem_singleton.1 hy, mem_singleton.1 hz]
        simp [sameStreamKey, screenInput, cameraInput]
      · cases hz
    · cases hy

lemma distinct_offered (snap : ReceiverSnapshot) : Distinct (offered snap) := by
  have hall : Distinct (snap.entries.flatMap entryInputs) := by
    refine pairwise_flatMap.2 ⟨fun x _ => distinct_entryInputs x, ?_⟩
    refine SlotMap.pairwise_entries.imp ?_
    intro x x' hlt y hy z hz
    have hy := (mem_entryInputs hy).2.1
    have hz := (mem_entryInputs hz).2.1
    have hne : y.remoteSlot ≠ z.remoteSlot := by
      rw [hy, hz]
      exact hlt.ne
    simp [sameStreamKey, hne]
  exact hall.sublist (take_sublist _ _)

def Allocation.rate (a : Allocation) (x : StreamInput) : ℕ :=
  ((a.streams.find? fun s => s.blank = x.stream).map StreamAllocation.allocatedBps).getD 0

lemma rate_cases (a : Allocation) (x : StreamInput) :
    (∃ s ∈ a.streams, s.blank = x.stream ∧ a.rate x = s.allocatedBps) ∨
      ((∀ s ∈ a.streams, s.blank ≠ x.stream) ∧ a.rate x = 0) := by
  unfold Allocation.rate
  cases hs : a.streams.find? (fun s => s.blank = x.stream) with
  | none =>
    refine .inr ⟨fun s hmem => ?_, rfl⟩
    simpa using List.find?_eq_none.1 hs s hmem
  | some s =>
    have hkey := List.find?_some hs
    exact .inl ⟨s, mem_of_find?_eq_some hs, by simpa using hkey, rfl⟩

/-- The streams of the allocation are those offered, once each. -/
structure Serves (a : Allocation) (inputs : List StreamInput) : Prop where
  of_mem : ∀ x ∈ inputs, ∃ s ∈ a.streams, s.blank = x.stream
  mem_of : ∀ s ∈ a.streams, ∃ x ∈ inputs, s.blank = x.stream
  inj : ∀ s ∈ a.streams, ∀ s' ∈ a.streams, s.blank = s'.blank → s = s'

lemma Serves.rate_eq (h : Serves a inputs) (hs : s ∈ a.streams) (hx : s.blank = x.stream) :
    a.rate x = s.allocatedBps := by
  rcases rate_cases a x with ⟨s', hs', hx', hrate⟩ | ⟨hnone, -⟩
  · rw [hrate, h.inj s' hs' s hs (hx'.trans hx.symm)]
  · exact absurd hx (hnone s hs)

lemma serves_fillAll (hlen : inputs.length ≤ maxStreams) (husable : ∀ x ∈ inputs, x.Usable)
    (hdistinct : Distinct inputs) (ha : a.streams = (fillAll c (selectStreams inputs) pool).1) :
    Serves a inputs := by
  have hperm := selectStreams_perm hlen husable hdistinct
  have hblank : (a.streams.map StreamAllocation.blank).Perm (inputs.map StreamInput.stream) := by
    rw [ha, blank_fillAll]
    refine (hperm.map _).trans ?_
    rw [map_map]
    exact .refl _
  have hmem : ∀ y, y ∈ a.streams.map StreamAllocation.blank ↔
      y ∈ inputs.map StreamInput.stream := fun y => hblank.mem_iff
  constructor
  · intro x hx
    exact mem_map.1 ((hmem _).2 (mem_map_of_mem hx))
  · intro s hs
    obtain ⟨x, hx, heq⟩ := mem_map.1 ((hmem _).1 (mem_map_of_mem hs))
    exact ⟨x, hx, heq.symm⟩
  · have hnodup : (inputs.map StreamInput.stream).Nodup := by
      refine pairwise_map.2 (hdistinct.imp ?_)
      intro x y hne heq
      unfold StreamInput.stream at heq
      simp only [StreamAllocation.mk.injEq] at heq
      obtain ⟨h1, h2, h3, h4, -⟩ := heq
      simp [sameStreamKey, h1, h2, h3, h4] at hne
    intro s hs s' hs' heq
    exact inj_on_of_nodup_map (hblank.nodup_iff.2 hnodup) hs hs' heq

/-! ### Priority -/

/-- No camera of the snapshot has a rate while an active screen of the snapshot is below the
preferred one. -/
def ScreenPriority (c : Config) (snap : ReceiverSnapshot) (bitrateBps : ℕ) : Prop :=
  let a := layerAllocation c (some snap) bitrateBps
  ∀ x ∈ snap.entries, ∀ y ∈ snap.entries, 0 < a.rate (cameraInput x.1 x.2) →
    y.2.hasScreen = true → y.2.screenActive = true →
      c.bandwidthScreenPreferredBps ≤ a.rate (screenInput y.1 y.2)

/-- An active screen is not among the first sixteen active streams, a camera is, and the pool
goes beyond the preferred rates of the screens that are. -/
def PassedOver (c : Config) (snap : ReceiverSnapshot) (bitrateBps : ℕ) : Prop :=
  (∃ y ∈ snap.entries, y.2.hasScreen = true ∧ y.2.screenActive = true ∧
    screenInput y.1 y.2 ∉ offered snap) ∧
  (∃ x ∈ offered snap, x.kind = .camera) ∧
  (offered snap).countP (fun x => x.kind = .screen) * c.bandwidthScreenPreferredBps <
    bitrateBps * c.bandwidthVideoPoolPercent / 100

lemma allocate_streams (c : Config) (inputs : List StreamInput) (bitrateBps : ℕ) :
    (allocate c inputs bitrateBps).streams =
      if inputs = [] ∨ videoPool c bitrateBps = 0 then []
      else (fillAll c (selectStreams inputs) (videoPool c bitrateBps)).1 := by
  unfold allocate
  dsimp only
  split <;> rfl

section

variable (snap : ReceiverSnapshot)

lemma serves_offered (bitrateBps : ℕ) (h : ¬ (offered snap = [] ∨ videoPool c bitrateBps = 0)) :
    Serves (allocate c (offered snap) bitrateBps) (offered snap) := by
  have hlen : (offered snap).length ≤ maxStreams := length_take_le _ _
  have hstreams := allocate_streams c (offered snap) bitrateBps
  rw [if_neg h] at hstreams
  exact serves_fillAll hlen (fun _ hx => (mem_offered hx).1) (distinct_offered snap) hstreams

lemma selectStreams_offered_perm :
    (selectStreams (offered snap)).Perm ((offered snap).map StreamInput.stream) := by
  have hlen : (offered snap).length ≤ maxStreams := length_take_le _ _
  exact selectStreams_perm hlen (fun _ hx => (mem_offered hx).1) (distinct_offered snap)

lemma countP_selectStreams_offered :
    (selectStreams (offered snap)).countP (fun s => s.kind = .screen) =
      (offered snap).countP fun x => x.kind = .screen := by
  rw [(selectStreams_offered_perm snap).countP_eq, countP_map]
  rfl

end

/-- A camera of the snapshot has a rate if one was offered and the screens offered leave
something. -/
lemma exists_camera_rate_iff (hc : c.Ordered) (snap : ReceiverSnapshot) (bitrateBps : ℕ) :
    (∃ x ∈ snap.entries,
      0 < (layerAllocation c (some snap) bitrateBps).rate (cameraInput x.1 x.2)) ↔
    (∃ x ∈ offered snap, x.kind = .camera) ∧
      (offered snap).countP (fun x => x.kind = .screen) * c.bandwidthScreenPreferredBps <
        bitrateBps * c.bandwidthVideoPoolPercent / 100 := by
  rw [layerAllocation_eq, ← hc.screenPreferred, ← hc.poolPercent, ← videoPool_eq]
  have hstreams := allocate_streams c (offered snap) bitrateBps
  by_cases hempty : offered snap = [] ∨ videoPool c bitrateBps = 0
  · -- nothing is allocated
    rw [if_pos hempty] at hstreams
    constructor
    · rintro ⟨x, -, hpos⟩
      rcases rate_cases (allocate c (offered snap) bitrateBps) (cameraInput x.1 x.2) with
        ⟨s, hs, -⟩ | ⟨-, hzero⟩
      · rw [hstreams] at hs
        cases hs
      · omega
    · rintro ⟨⟨x, hx, -⟩, hlt⟩
      rcases hempty with hnil | hzero
      · rw [hnil] at hx
        cases hx
      · omega
  · have hserves := serves_offered snap bitrateBps hempty
    rw [if_neg hempty] at hstreams
    have hu : Unset (selectStreams (offered snap)) := unset_streamsOf _ _
    -- among the streams of the allocation
    have hcamera := @exists_camera_pos_iff c (videoPool c bitrateBps) _ hc hu
    rw [fillScreens_rest_pos_iff hc hu, countP_selectStreams_offered, ← hstreams,
      and_comm] at hcamera
    constructor
    · rintro ⟨x, -, hpos⟩
      rcases rate_cases (allocate c (offered snap) bitrateBps) (cameraInput x.1 x.2) with
        ⟨s, hs, hkey, hrate⟩ | ⟨-, hzero⟩
      · have hkind : s.kind = .camera := congrArg StreamAllocation.kind hkey
        obtain ⟨⟨s', hs', hk'⟩, hlt⟩ := hcamera.1 ⟨s, hs, hkind, hrate ▸ hpos⟩
        obtain ⟨y, hy, rfl⟩ := mem_map.1 ((selectStreams_offered_perm snap).mem_iff.1 hs')
        exact ⟨⟨y, hy, hk'⟩, hlt⟩
      · omega
    · rintro ⟨⟨y, hy, hk⟩, hlt⟩
      have hmem := (selectStreams_offered_perm snap).mem_iff.2 (mem_map_of_mem hy)
      obtain ⟨s, hs, hkind, hpos⟩ := hcamera.2 ⟨⟨y.stream, hmem, hk⟩, hlt⟩
      obtain ⟨z, hz, hkey⟩ := hserves.mem_of s hs
      have hkind' : z.kind = .camera := (congrArg StreamAllocation.kind hkey).symm.trans hkind
      obtain ⟨-, x, hx, rfl | rfl⟩ := mem_offered hz
      · cases hkind'
      · refine ⟨x, hx, ?_⟩
        rw [hserves.rate_eq hs hkey]
        exact hpos

lemma preferred_le_rate (hc : c.Ordered) {bitrateBps : ℕ} {x y : ℕ × ReceiverEntry}
    (hcamera : 0 < (layerAllocation c (some snap) bitrateBps).rate (cameraInput x.1 x.2))
    (hy : screenInput y.1 y.2 ∈ offered snap) :
    c.bandwidthScreenPreferredBps ≤
      (layerAllocation c (some snap) bitrateBps).rate (screenInput y.1 y.2) := by
  rw [layerAllocation_eq] at hcamera ⊢
  rcases rate_cases (allocate c (offered snap) bitrateBps) (cameraInput x.1 x.2) with
    ⟨s, hs, hkey, hrate⟩ | ⟨-, hzero⟩
  · have hstreams := allocate_streams c (offered snap) bitrateBps
    by_cases hempty : offered snap = [] ∨ videoPool c bitrateBps = 0
    · rw [hstreams, if_pos hempty] at hs
      cases hs
    obtain ⟨s', hs', hkey'⟩ := (serves_offered snap bitrateBps hempty).of_mem _ hy
    rw [(serves_offered snap bitrateBps hempty).rate_eq hs' hkey', ← hc.screenPreferred]
    rw [hstreams, if_neg hempty] at hs hs'
    have hu : Unset (selectStreams (offered snap)) := unset_streamsOf _ _
    exact (filled_fillAll hc hu _).priority s hs (congrArg StreamAllocation.kind hkey)
      (hrate ▸ hcamera) s' hs' (congrArg StreamAllocation.kind hkey')
  · omega

/-- **Screen priority.** For every snapshot, estimate and configuration that passes the
validation, the screens of the snapshot come before its cameras unless a screen is passed
over. -/
theorem screen_priority_iff (c : Config) (hc : configValidate c = true)
    (snap : ReceiverSnapshot) (bitrateBps : ℕ) :
    ScreenPriority c snap bitrateBps ↔ ¬ PassedOver c snap bitrateBps := by
  have ho := ordered_of_valid hc
  have hcameras := exists_camera_rate_iff ho snap bitrateBps
  have hpos := (Nat.lt_of_lt_of_le ho.admission_pos ho.admission_le_preferred)
  rw [ho.screenPreferred] at hpos
  constructor
  · rintro hprio ⟨⟨y, hy, hhas, hactive, hnot⟩, hrest⟩
    obtain ⟨x, hx, hrate⟩ := hcameras.2 hrest
    have hle := hprio x hx y hy hrate hhas hactive
    rw [layerAllocation_eq] at hle
    -- a screen that was not offered has no rate
    rcases rate_cases (allocate c (offered snap) bitrateBps) (screenInput y.1 y.2) with
      ⟨s, hs, hkey, -⟩ | ⟨-, hzero⟩
    · by_cases hempty : offered snap = [] ∨ videoPool c bitrateBps = 0
      · rw [allocate_streams, if_pos hempty] at hs
        cases hs
      obtain ⟨z, hz, hkey'⟩ := (serves_offered snap bitrateBps hempty).mem_of s hs
      rw [hkey] at hkey'
      unfold StreamInput.stream screenInput at hkey'
      simp only [StreamAllocation.mk.injEq] at hkey'
      obtain ⟨h1, h2, h3, h4, -⟩ := hkey'
      apply hnot
      have hz' : screenInput y.1 y.2 = z := by
        unfold screenInput
        rw [h1, h2, h3, h4, ← (mem_offered hz).1.1]
      rwa [hz']
    · omega
  · intro hnot x hx y hy hrate hhas hactive
    apply preferred_le_rate ho hrate
    by_contra hmissing
    exact hnot ⟨⟨y, hy, hhas, hactive, hmissing⟩, hcameras.1 ⟨x, hx, hrate⟩⟩

def shownEntry (slot : ℕ) (screen camera : Bool) : ReceiverEntry :=
  { ReceiverEntry.blank slot 1 with
    subscriber := slot + 1, publisherPeerId := slot + 1, hasVideo := camera, videoActive := camera
    hasScreen := screen, screenActive := screen }

/-- Cameras in the first `n` slots and a screen in the next. -/
def camerasThenScreen (n : ℕ) : ReceiverSnapshot :=
  ⟨1, fun i => if i < n then some (shownEntry i false true)
    else if i = n then some (shownEntry n true false) else none⟩

/-- Two cameras and a screen behind them: the screen is at its preferred rate. -/
theorem screen_priority_iff_three :
    configValidate .defaults = true ∧
      (layerAllocation .defaults (some (camerasThenScreen 2)) 3000000).rate
        (screenInput 2 (shownEntry 2 true false)) = 2070000 ∧
      (ScreenPriority .defaults (camerasThenScreen 2) 3000000 ↔
        ¬ PassedOver .defaults (camerasThenScreen 2) 3000000) :=
  ⟨by decide +kernel, by decide +kernel, screen_priority_iff .defaults (by decide +kernel) _ _⟩

/-- Sixteen cameras and a screen behind them: the cameras share the pool and the screen has
nothing. -/
theorem screen_passed_over : configValidate .defaults = true ∧
    ¬ ScreenPriority .defaults (camerasThenScreen 16) 3000000 := by
  refine ⟨by decide +kernel, fun h => ?_⟩
  have hle := h (0, shownEntry 0 false true) (by decide +kernel)
    (16, shownEntry 16 true false) (by decide +kernel) (by decide +kernel) rfl rfl
  revert hle
  decide +kernel

end MezonSfu.Bandwidth
