import MezonSfu.BandwidthAllocator

/-!
The laws of the bandwidth allocator.

The passes share one budget. Each keeps the streams of both kinds even, and cameras are only
looked at when the screens are at their preferred rate or the budget is spent.
-/

namespace MezonSfu.Bandwidth

open WaterFill List

variable {c : Config} {kind kind' : StreamKind} {t t' pool : ℕ} {streams : List StreamAllocation}
  {r : List StreamAllocation × ℕ} {s s' : StreamAllocation}

/-- The rates the allocator uses are the configured ones, and they are in order. -/
structure Config.Ordered (c : Config) : Prop where
  poolPercent : c.poolPercent = c.bandwidthVideoPoolPercent
  admission : c.admissionBps = c.bandwidthSourceAdmissionBps
  screenPreferred : c.screenPreferredBps = c.bandwidthScreenPreferredBps
  screenCap : c.screenCapBps = c.bandwidthScreenCapBps
  cameraCap : c.cameraCapBps = c.bandwidthCameraCapBps
  percent_le : c.poolPercent ≤ 100
  percent_pos : 0 < c.poolPercent
  admission_pos : 0 < c.admissionBps
  admission_le_preferred : c.admissionBps ≤ c.screenPreferredBps
  preferred_le_mid : c.screenPreferredBps ≤ c.screenMidBps
  mid_le_cap : c.screenMidBps ≤ c.screenCapBps
  admission_le_cameraMid : c.admissionBps ≤ c.cameraMidBps
  cameraMid_le_cap : c.cameraMidBps ≤ c.cameraCapBps

lemma policyValue_of_pos {x fallback : ℕ} (h : 0 < x) : policyValue x fallback = x := if_pos h.ne'

lemma ordered_of_valid (h : configValidate c) : c.Ordered := by
  unfold configValidate at h
  have hp : c.validPolicy := by simp_all only [Bool.and_eq_true]
  simp only [Config.validPolicy, Bool.not_eq_true', Bool.or_eq_false_iff,
    decide_eq_false_iff_not, not_lt] at hp
  have e1 : c.poolPercent = _ := policyValue_of_pos (by omega)
  have e2 : c.admissionBps = _ := policyValue_of_pos (by omega)
  have e3 : c.screenPreferredBps = _ := policyValue_of_pos (by omega)
  have e4 : c.screenMidBps = _ := policyValue_of_pos (by omega)
  have e5 : c.screenCapBps = _ := policyValue_of_pos (by omega)
  have e6 : c.cameraMidBps = _ := policyValue_of_pos (by omega)
  have e7 : c.cameraCapBps = _ := policyValue_of_pos (by omega)
  exact ⟨e1, e2, e3, e5, e7, by omega, by omega, by omega, by omega, by omega, by omega,
    by omega, by omega⟩

lemma videoPool_eq (c : Config) (e : ℕ) : videoPool c e = e * c.poolPercent / 100 := by
  unfold videoPool
  have he : e * c.poolPercent = e % 100 * c.poolPercent + 100 * (e / 100 * c.poolPercent) := by
    nth_rewrite 1 [← Nat.mod_add_div e 100]
    ring
  rw [he, Nat.add_mul_div_left _ _ (by norm_num), Nat.add_comm]

lemma videoPool_le (h : c.Ordered) (e : ℕ) : videoPool c e ≤ e := by
  rw [videoPool_eq]
  apply Nat.div_le_of_le_mul
  rw [Nat.mul_comm]
  exact Nat.mul_le_mul_right e h.percent_le

/-! ### One pass -/

def rateSum (l : List StreamAllocation) : ℕ := (l.map StreamAllocation.allocatedBps).sum

def StreamAllocation.blank (s : StreamAllocation) : StreamAllocation := { s with allocatedBps := 0 }

abbrev EvenAt (kind : StreamKind) (t : ℕ) (r : List StreamAllocation × ℕ) : Prop :=
  (streamClass kind).Even t r.1 r.2

lemma mem_streamClass : (streamClass kind).mem s ↔ s.kind = kind := decide_eq_true_iff

lemma rateSum_fillClass :
    rateSum (fillClass kind t r).1 + (fillClass kind t r).2 = rateSum r.1 + r.2 :=
  @total_fill _ (streamClass kind) t r.2 r.1

lemma blank_fillClass :
    (fillClass kind t r).1.map StreamAllocation.blank = r.1.map StreamAllocation.blank :=
  map_fill _ fun _ _ => rfl

lemma EvenAt.same (h : EvenAt kind t r) (hle : t ≤ t') : EvenAt kind t' (fillClass kind t' r) :=
  h.fill hle

lemma EvenAt.other (h : EvenAt kind t r) (hne : kind' ≠ kind) :
    EvenAt kind t (fillClass kind' t' r) := by
  apply h.fill_other
  intro s x hs
  rw [mem_streamClass] at hs
  exact decide_eq_false (by rw [← hs] at hne; exact hne)

lemma exists_of_mem_fillClass (hs : s ∈ (fillClass kind t r).1) :
    ∃ s₀ ∈ r.1, s₀.kind = s.kind ∧ s₀.allocatedBps ≤ s.allocatedBps ∧ (s.kind ≠ kind → s₀ = s) := by
  obtain ⟨s₀, hs₀, hr⟩ := exists_of_forall₂ raised_fill hs
  refine ⟨s₀, hs₀, ?_⟩
  rcases hr with rfl | ⟨hm, x, hx, rfl⟩
  · exact ⟨rfl, le_rfl, fun _ => rfl⟩
  · exact ⟨rfl, hx, fun hne => absurd (mem_streamClass.1 hm) hne⟩

lemma exists_mem_fillClass (hs : s ∈ r.1) :
    ∃ s' ∈ (fillClass kind t r).1, s'.kind = s.kind ∧ s.allocatedBps ≤ s'.allocatedBps := by
  obtain ⟨s', hs', hr⟩ := exists_of_forall₂ (List.Forall₂.flip (raised_fill (C := streamClass kind)
    (t := t))) hs
  refine ⟨s', hs', ?_⟩
  rcases hr with rfl | ⟨-, x, hx, rfl⟩
  · exact ⟨rfl, le_rfl⟩
  · exact ⟨rfl, hx⟩

/-! ### The stages -/

def Unset (streams : List StreamAllocation) : Prop := ∀ s ∈ streams, s.allocatedBps = 0

lemma Unset.evenAt (h : Unset streams) : EvenAt kind 0 (streams, pool) := .inl fun s hs _ => h s hs

lemma Unset.rateSum (h : Unset streams) : rateSum streams = 0 := by
  unfold Bandwidth.rateSum
  apply sum_eq_zero
  intro x hx
  obtain ⟨s, hs, rfl⟩ := mem_map.1 hx
  exact h s hs

lemma fillScreens_screens (h : c.Ordered) (hu : Unset streams) :
    EvenAt .screen c.screenPreferredBps (fillScreens c (streams, pool)) :=
  (hu.evenAt.same (Nat.zero_le _)).same ((min_le_left _ _).trans h.admission_le_preferred)

lemma fillScreens_others (hu : Unset streams) (hs : s ∈ (fillScreens c (streams, pool)).1)
    (hne : s.kind ≠ .screen) : s.allocatedBps = 0 := by
  obtain ⟨s₁, h1, -, -, he1⟩ := exists_of_mem_fillClass hs
  rw [he1 hne] at h1
  obtain ⟨s₂, h2, -, -, he2⟩ := exists_of_mem_fillClass h1
  rw [he2 hne] at h2
  exact hu s h2

lemma fillScreens_cameras (hu : Unset streams) (hs : s ∈ (fillScreens c (streams, pool)).1)
    (hk : s.kind = .camera) : s.allocatedBps = 0 :=
  fillScreens_others hu hs (by rw [hk]; exact StreamKind.noConfusion)

lemma rateSum_fillScreens (hu : Unset streams) :
    rateSum (fillScreens c (streams, pool)).1 + (fillScreens c (streams, pool)).2 = pool := by
  unfold fillScreens
  rw [rateSum_fillClass, rateSum_fillClass, hu.rateSum, Nat.zero_add]

def fillLater (c : Config) (screens : Bool) (r : List StreamAllocation × ℕ) :
    List StreamAllocation × ℕ :=
  fillRest c screens (fillCameras c r)

lemma fillLater_zero (l : List StreamAllocation) (screens : Bool) :
    fillLater c screens (l, 0) = (l, 0) := by
  have hzero : ∀ kind t, fillClass kind t (l, 0) = (l, 0) := fun _ _ => fill_zero
  unfold fillLater fillCameras fillRest
  rw [hzero]
  cases screens
  · rw [if_neg Bool.false_ne_true, hzero, hzero]
  · rw [if_pos rfl, hzero, hzero]

lemma rateSum_fillRest (screens : Bool) :
    rateSum (fillRest c screens r).1 + (fillRest c screens r).2 = rateSum r.1 + r.2 := by
  unfold fillRest
  split <;> rw [rateSum_fillClass, rateSum_fillClass]

lemma blank_fillAll :
    (fillAll c streams pool).1.map StreamAllocation.blank = streams.map StreamAllocation.blank := by
  unfold fillAll fillRest fillCameras fillScreens
  split <;> rw [blank_fillClass, blank_fillClass, blank_fillClass, blank_fillClass, blank_fillClass]

variable {screens : Bool} {l : List StreamAllocation} {ps : List PublisherAllocation}
  {x y : StreamInput} {inputs order : List StreamInput}

lemma exists_of_mem_fillRest (hs : s ∈ (fillRest c screens r).1) :
    ∃ s₀ ∈ r.1, s₀.kind = s.kind ∧ s₀.allocatedBps ≤ s.allocatedBps := by
  unfold fillRest at hs
  split at hs
  all_goals
    obtain ⟨s₁, h1, hk1, hle1, -⟩ := exists_of_mem_fillClass hs
    obtain ⟨s₂, h2, hk2, hle2, -⟩ := exists_of_mem_fillClass h1
    exact ⟨s₂, h2, hk2.trans hk1, hle2.trans hle1⟩

lemma exists_mem_fillRest (screens : Bool) (hs : s ∈ r.1) :
    ∃ s' ∈ (fillRest c screens r).1, s'.kind = s.kind ∧ s.allocatedBps ≤ s'.allocatedBps := by
  unfold fillRest
  split
  all_goals
    obtain ⟨s₁, h1, hk1, hle1⟩ := exists_mem_fillClass hs
    obtain ⟨s₂, h2, hk2, hle2⟩ := exists_mem_fillClass h1
    exact ⟨s₂, h2, hk2.trans hk1, hle1.trans hle2⟩

lemma exists_of_mem_fillLater (hs : s ∈ (fillLater c screens r).1) :
    ∃ s₀ ∈ r.1, s₀.kind = s.kind ∧ s₀.allocatedBps ≤ s.allocatedBps := by
  obtain ⟨s₁, h1, hk1, hle1⟩ := exists_of_mem_fillRest hs
  obtain ⟨s₂, h2, hk2, hle2, -⟩ := exists_of_mem_fillClass h1
  exact ⟨s₂, h2, hk2.trans hk1, hle2.trans hle1⟩

/-- Streams that differ in their rates only are of the same kinds. -/
lemma exists_kind_of_blank {l' : List StreamAllocation}
    (h : l'.map StreamAllocation.blank = l.map StreamAllocation.blank) (hs : s ∈ l) :
    ∃ s' ∈ l', s'.kind = s.kind := by
  have hmem := mem_map_of_mem (f := StreamAllocation.blank) hs
  rw [← h] at hmem
  obtain ⟨s', hs', heq⟩ := mem_map.1 hmem
  have hkind : s'.blank.kind = s.blank.kind := by rw [heq]
  exact ⟨s', hs', hkind⟩

lemma hasScreen_iff : hasScreen streams ↔ ∃ s ∈ streams, s.kind = .screen := by
  unfold hasScreen
  simp only [any_eq_true, decide_eq_true_eq]

lemma blank_fillScreens : (fillScreens c (streams, pool)).1.map StreamAllocation.blank =
    streams.map StreamAllocation.blank := by
  unfold fillScreens
  rw [blank_fillClass, blank_fillClass]

lemma Unset.evenAt_fillScreens (hu : Unset streams) :
    EvenAt .camera 0 (fillScreens c (streams, pool)) :=
  .inl fun _ hs hm => fillScreens_cameras hu hs (mem_streamClass.1 hm)

lemma exists_camera_pos_iff (h : c.Ordered) (hu : Unset streams) :
    (∃ s ∈ (fillAll c streams pool).1, s.kind = .camera ∧ 0 < s.allocatedBps) ↔
      0 < (fillScreens c (streams, pool)).2 ∧ ∃ s ∈ streams, s.kind = .camera := by
  set low := min c.admissionBps c.cameraCapBps
  have hall : fillAll c streams pool =
    fillLater c (hasScreen streams) (fillScreens c (streams, pool)) := rfl
  constructor
  · rintro ⟨s, hs, hk, hpos⟩
    obtain ⟨s₀, hs₀, hk₀⟩ := exists_kind_of_blank (blank_fillAll).symm hs
    refine ⟨Nat.pos_of_ne_zero ?_, s₀, hs₀, hk₀.trans hk⟩
    intro hzero
    rw [hall, ← Prod.mk.eta (p := fillScreens c (streams, pool)), hzero, fillLater_zero] at hs
    rw [fillScreens_cameras hu hs hk] at hpos
    exact Nat.lt_irrefl 0 hpos
  · rintro ⟨hrest, s, hs, hk⟩
    set r := fillScreens c (streams, pool)
    have hzero : EvenAt .camera 0 r := hu.evenAt_fillScreens
    have hadmit : 0 < min c.admissionBps c.cameraCapBps := by
      have := h.admission_pos
      have := h.admission_le_cameraMid
      have := h.cameraMid_le_cap
      omega
    -- the pass over the cameras reaches one of them
    have hsome : ∃ s ∈ (fillCameras c r).1, s.kind = .camera ∧ 0 < s.allocatedBps := by
      rcases hzero.same (Nat.zero_le low) with hfull | ⟨hspent, -⟩
      · obtain ⟨s₁, h1, hk1⟩ := exists_kind_of_blank (blank_fillClass.trans blank_fillScreens) hs
        have hk' := hk1.trans hk
        refine ⟨s₁, h1, hk', ?_⟩
        have hlevel : s₁.allocatedBps = _ := hfull s₁ h1 (mem_streamClass.2 hk')
        rw [hlevel]
        exact hadmit
      · have htotal := @rateSum_fillClass .camera low r
        have hgrown : rateSum r.1 <
            rateSum (fillClass .camera low r).1 := by
          omega
        obtain ⟨s₁, h1, hm, hpos⟩ := exists_pos_of_raised (C := streamClass .camera)
          raised_fill hgrown
        exact ⟨s₁, h1, mem_streamClass.1 hm, hpos⟩
    obtain ⟨s₁, h1, hk1, hpos⟩ := hsome
    obtain ⟨s₂, h2, hk2, hle⟩ := exists_mem_fillRest (hasScreen streams) h1
    exact ⟨s₂, h2, hk2.trans hk1, hpos.trans_le hle⟩

structure Filled (c : Config) (streams : List StreamAllocation) (pool : ℕ)
    (r : List StreamAllocation × ℕ) : Prop where
  blank : r.1.map StreamAllocation.blank = streams.map StreamAllocation.blank
  total : rateSum r.1 + r.2 = pool
  screens : EvenAt .screen c.screenCapBps r
  cameras : EvenAt .camera
    (if hasScreen streams then min c.admissionBps c.cameraCapBps else c.cameraCapBps) r
  priority : ∀ s ∈ r.1, s.kind = .camera → 0 < s.allocatedBps →
    ∀ s' ∈ r.1, s'.kind = .screen → c.screenPreferredBps ≤ s'.allocatedBps

lemma filled_fillAll (h : c.Ordered) (hu : Unset streams) (pool : ℕ) :
    Filled c streams pool (fillAll c streams pool) := by
  set r := fillScreens c (streams, pool)
  have hscreens : EvenAt .screen c.screenPreferredBps r := fillScreens_screens h hu
  have hcameras : EvenAt .camera 0 r := hu.evenAt_fillScreens
  -- after the cameras are admitted
  have hscreens' : EvenAt .screen c.screenPreferredBps
    (fillCameras c r) := hscreens.other StreamKind.noConfusion
  have hcameras' : EvenAt .camera (min c.admissionBps c.cameraCapBps)
    (fillCameras c r) := hcameras.same (Nat.zero_le _)
  refine ⟨blank_fillAll, ?_, ?_, ?_, ?_⟩
  · unfold fillAll
    rw [rateSum_fillRest, fillCameras, rateSum_fillClass, rateSum_fillScreens hu]
  · unfold fillAll fillRest
    split
    · exact (hscreens'.same h.preferred_le_mid).same h.mid_le_cap
    rename_i hno
    -- there is no screen
    left
    intro s hs hm
    obtain ⟨s₀, hs₀, hk₀⟩ := exists_kind_of_blank (@blank_fillAll c pool streams).symm (by
      unfold fillAll fillRest
      rwa [if_neg hno])
    exact absurd (hasScreen_iff.2 ⟨s₀, hs₀, hk₀.trans (mem_streamClass.1 hm)⟩) hno
  · unfold fillAll fillRest
    split
    · exact (hcameras'.other StreamKind.noConfusion).other StreamKind.noConfusion
    · exact (hcameras'.same ((min_le_left _ _).trans h.admission_le_cameraMid)).same
        h.cameraMid_le_cap
  · intro s hs hk hpos s' hs' hk'
    have hrest := ((exists_camera_pos_iff h hu).1 ⟨s, hs, hk, hpos⟩).1
    obtain ⟨s₀, hs₀, hk₀, hle₀⟩ := exists_of_mem_fillLater hs'
    have hlevel : s₀.allocatedBps = c.screenPreferredBps :=
      hscreens.eq hrest hs₀ (mem_streamClass.2 (hk₀.trans hk'))
    rw [← hlevel]
    exact hle₀

/-! ### Publishers -/

def publisherSum (l : List StreamAllocation) (id : ℕ) : ℕ :=
  rateSum (l.filter fun s => s.publisherPeerId = id)

lemma publisherSum_append (l : List StreamAllocation) (s : StreamAllocation) (id : ℕ) :
    publisherSum (l ++ [s]) id =
      publisherSum l id + if s.publisherPeerId = id then s.allocatedBps else 0 := by
  unfold publisherSum rateSum
  rw [filter_append, map_append, sum_append]
  by_cases hid : s.publisherPeerId = id
  · rw [filter_cons_of_pos (by simpa using hid), if_pos hid]
    rfl
  · rw [filter_cons_of_neg (by simpa using hid), if_neg hid]
    rfl

/-- Each publisher of the streams is listed once, with its sum. -/
structure Totals (l : List StreamAllocation) (ps : List PublisherAllocation) : Prop where
  nodup : (ps.map PublisherAllocation.publisherPeerId).Nodup
  mem_iff : ∀ id, id ∈ ps.map PublisherAllocation.publisherPeerId ↔ ∃ s ∈ l, s.publisherPeerId = id
  sum : ∀ p ∈ ps, p.allocatedBps = min (publisherSum l p.publisherPeerId) uint32Max

lemma ids_addPublisher (ps : List PublisherAllocation) (s : StreamAllocation) :
    (addPublisher ps s).map PublisherAllocation.publisherPeerId =
      if s.publisherPeerId ∈ ps.map PublisherAllocation.publisherPeerId then
        ps.map PublisherAllocation.publisherPeerId
      else ps.map PublisherAllocation.publisherPeerId ++ [s.publisherPeerId] := by
  induction ps with
  | nil => rfl
  | cons p ps ih =>
    unfold addPublisher
    by_cases hp : p.publisherPeerId = s.publisherPeerId
    · rw [if_pos hp, if_pos (by rw [map_cons, hp]; exact .head _)]
      rfl
    rw [if_neg hp, map_cons, ih, map_cons]
    by_cases hmem : s.publisherPeerId ∈ ps.map PublisherAllocation.publisherPeerId
    · rw [if_pos hmem, if_pos (.tail _ hmem)]
    · rw [if_neg hmem, if_neg, cons_append]
      rw [mem_cons, not_or]
      exact ⟨fun he => hp he.symm, hmem⟩

lemma mem_addPublisher {p : PublisherAllocation}
    (hnodup : (ps.map PublisherAllocation.publisherPeerId).Nodup) (hp : p ∈ addPublisher ps s) :
    (p ∈ ps ∧ p.publisherPeerId ≠ s.publisherPeerId) ∨
      (p.publisherPeerId = s.publisherPeerId ∧
        ((∃ q ∈ ps, q.publisherPeerId = s.publisherPeerId ∧
            p.allocatedBps = min (q.allocatedBps + s.allocatedBps) uint32Max) ∨
          (s.publisherPeerId ∉ ps.map PublisherAllocation.publisherPeerId ∧
            p.allocatedBps = min s.allocatedBps uint32Max))) := by
  induction ps with
  | nil =>
    rw [mem_singleton.1 hp]
    exact .inr ⟨rfl, .inr ⟨not_mem_nil, rfl⟩⟩
  | cons q ps ih =>
    rw [map_cons, nodup_cons] at hnodup
    unfold addPublisher at hp
    by_cases hq : q.publisherPeerId = s.publisherPeerId
    · rw [if_pos hq] at hp
      rcases mem_cons.1 hp with rfl | hp
      · exact .inr ⟨hq, .inl ⟨q, .head _, hq, rfl⟩⟩
      · refine .inl ⟨.tail _ hp, fun he => hnodup.1 ?_⟩
        rw [hq, ← he]
        exact mem_map_of_mem hp
    · rw [if_neg hq] at hp
      rcases mem_cons.1 hp with rfl | hp
      · exact .inl ⟨.head _, hq⟩
      rcases ih hnodup.2 hp with ⟨hin, hne⟩ | ⟨hid, ⟨q', hq', hid', hsum⟩ | ⟨hnot, hsum⟩⟩
      · exact .inl ⟨.tail _ hin, hne⟩
      · exact .inr ⟨hid, .inl ⟨q', .tail _ hq', hid', hsum⟩⟩
      · refine .inr ⟨hid, .inr ⟨?_, hsum⟩⟩
        rw [map_cons, mem_cons, not_or]
        exact ⟨fun he => hq he.symm, hnot⟩

lemma Totals.add (h : Totals l ps) (s : StreamAllocation) :
    Totals (l ++ [s]) (addPublisher ps s) := by
  constructor
  · rw [ids_addPublisher]
    split
    · exact h.nodup
    rename_i hnot
    rw [nodup_append]
    refine ⟨h.nodup, nodup_singleton _, ?_⟩
    intro a ha b hb hab
    rw [mem_singleton.1 hb] at hab
    exact hnot (hab ▸ ha)
  · intro id
    have hmem := h.mem_iff id
    rw [ids_addPublisher]
    simp only [mem_append, mem_singleton]
    split
    · rw [hmem]
      constructor
      · rintro ⟨s', hs', hid⟩
        exact ⟨s', .inl hs', hid⟩
      · rintro ⟨s', hs' | rfl, hid⟩
        · exact ⟨s', hs', hid⟩
        · rwa [← hmem, ← hid]
    · rw [mem_append, hmem, mem_singleton]
      constructor
      · rintro (⟨s', hs', hid⟩ | rfl)
        · exact ⟨s', .inl hs', hid⟩
        · exact ⟨s, .inr rfl, rfl⟩
      · rintro ⟨s', hs' | rfl, hid⟩
        · exact .inl ⟨s', hs', hid⟩
        · exact .inr hid.symm
  · intro p hp
    rw [publisherSum_append]
    rcases mem_addPublisher h.nodup hp with ⟨hin, hne⟩ | ⟨hid, ⟨q, hq, hidq, hsum⟩ | ⟨hnot, hsum⟩⟩
    · rw [if_neg hne.symm, Nat.add_zero]
      exact h.sum p hin
    · rw [if_pos hid.symm, hsum, h.sum q hq, hidq, hid]
      omega
    · have hzero : publisherSum l p.publisherPeerId = 0 := by
        unfold publisherSum
        rw [filter_eq_nil_iff.2]
        · rfl
        · intro s' hs' he
          exact hnot ((h.mem_iff _).2 ⟨s', hs', by simpa [hid] using he⟩)
      rw [if_pos hid.symm, hzero, Nat.zero_add, hsum]

lemma totals_foldl (l : List StreamAllocation) : Totals l (l.foldl addPublisher []) := by
  induction l using List.reverseRecOn with
  | nil => exact ⟨nodup_nil, fun id => ⟨nofun, nofun⟩, nofun⟩
  | append_singleton l s ih =>
    rw [foldl_append]
    exact ih.add s

lemma mem_insertInput (h : y ∈ insertInput order x) : y = x ∨ y ∈ order := by
  unfold insertInput at h
  split at h
  · exact .inr h
  have hkept : ∀ z ∈ (if order.length < maxStreams then order else order.dropLast),
      z ∈ order := by
    intro z hz
    split at hz
    · exact hz
    · exact mem_of_mem_dropLast hz
  rcases mem_append.1 h with h | h
  · exact .inr (hkept y (mem_of_mem_take h))
  · rcases mem_cons.1 h with rfl | h
    · exact .inl rfl
    · exact .inr (hkept y (mem_reverse.1 ((takeWhile_sublist _).mem (mem_reverse.1 h))))

def StreamInput.Usable (x : StreamInput) : Prop :=
  x.active = true ∧ x.publisherPeerId ≠ 0 ∧ x.kind ≠ .other

lemma mem_considerInput (h : y ∈ considerInput order x) : (y = x ∧ x.Usable) ∨ y ∈ order := by
  unfold considerInput at h
  split at h
  · exact .inr h
  rename_i husable
  simp only [Bool.or_eq_true, not_or, Bool.not_eq_true', Bool.not_eq_false,
    decide_eq_true_eq] at husable
  split at h
  · exact .inr h
  · rcases mem_insertInput h with rfl | h
    · exact .inl ⟨rfl, husable.1.1, husable.1.2, husable.2⟩
    · exact .inr h

lemma mem_selectInputs (h : y ∈ selectInputs inputs) : y ∈ inputs ∧ y.Usable := by
  unfold selectInputs at h
  induction inputs using List.reverseRecOn with
  | nil => cases h
  | append_singleton l x ih =>
    rw [foldl_append] at h
    rcases mem_considerInput h with ⟨rfl, husable⟩ | h
    · exact ⟨mem_append_right _ (.head _), husable⟩
    · exact ⟨mem_append_left _ (ih h).1, (ih h).2⟩

lemma mem_streamsOf {prev : Option StreamInput} (h : s ∈ streamsOf prev order) :
    ∃ x ∈ order, s = x.stream := by
  induction order generalizing prev with
  | nil => cases h
  | cons x order ih =>
    unfold streamsOf at h
    split at h
    · obtain ⟨y, hy, he⟩ := ih h
      exact ⟨y, .tail _ hy, he⟩
    · rcases mem_cons.1 h with rfl | h
      · exact ⟨x, .head _, rfl⟩
      · obtain ⟨y, hy, he⟩ := ih h
        exact ⟨y, .tail _ hy, he⟩

lemma unset_streamsOf (prev : Option StreamInput) (order : List StreamInput) :
    Unset (streamsOf prev order) := by
  induction order generalizing prev with
  | nil => exact nofun
  | cons x order ih =>
    unfold streamsOf
    split
    · exact ih _
    · exact forall_mem_cons.2 ⟨rfl, ih _⟩

structure Lawful (c : Config) (estimatedBps : ℕ) (a : Allocation) : Prop where
  pool : a.videoPoolBps = estimatedBps * c.bandwidthVideoPoolPercent / 100
  reserve : a.videoPoolBps + a.reserveBps = estimatedBps
  allocated : (a.streams.map StreamAllocation.allocatedBps).sum = a.allocatedBps
  unallocated : a.allocatedBps + a.unallocatedBps = a.videoPoolBps
  screen_le : ∀ s ∈ a.streams, s.kind = .screen → s.allocatedBps ≤ c.bandwidthScreenCapBps
  camera_le : ∀ s ∈ a.streams, s.kind = .camera → s.allocatedBps ≤ c.bandwidthCameraCapBps
  camera_le_admission : ∀ s ∈ a.streams, s.kind = .camera →
    (∃ s' ∈ a.streams, s'.kind = .screen) →
      s.allocatedBps ≤ min c.bandwidthSourceAdmissionBps c.bandwidthCameraCapBps
  priority : ∀ s ∈ a.streams, s.kind = .camera → 0 < s.allocatedBps →
    ∀ s' ∈ a.streams, s'.kind = .screen → c.bandwidthScreenPreferredBps ≤ s'.allocatedBps
  fair : ∀ s ∈ a.streams, ∀ s' ∈ a.streams, s.kind = s'.kind → s.allocatedBps ≤ s'.allocatedBps + 1
  workConserving : 0 < a.unallocatedBps → a.streams ≠ [] → hasUnmetDemand c a = false
  publisher_nodup : (a.publishers.map PublisherAllocation.publisherPeerId).Nodup
  publisher_iff : ∀ id, id ∈ a.publishers.map PublisherAllocation.publisherPeerId ↔
    ∃ s ∈ a.streams, s.publisherPeerId = id
  publisher_sum : ∀ p ∈ a.publishers,
    ((a.streams.filter fun s => s.publisherPeerId = p.publisherPeerId).map
      StreamAllocation.allocatedBps).sum < 2 ^ 32 →
    p.allocatedBps = ((a.streams.filter fun s => s.publisherPeerId = p.publisherPeerId).map
      StreamAllocation.allocatedBps).sum

def selectStreams (inputs : List StreamInput) : List StreamAllocation :=
  streamsOf none (selectInputs inputs)

lemma kind_of_mem_allocated (hs : s ∈ (fillAll c (selectStreams inputs) pool).1) :
    s.kind = .screen ∨ s.kind = .camera := by
  obtain ⟨s₀, hs₀, hk⟩ := exists_kind_of_blank blank_fillAll.symm hs
  obtain ⟨x, hx, rfl⟩ := mem_streamsOf hs₀
  have hne : s.kind ≠ .other := hk ▸ (mem_selectInputs hx).2.2.2
  cases hkind : s.kind with
  | other => exact absurd hkind hne
  | camera => exact .inr rfl
  | screen => exact .inl rfl

lemma Filled.hasScreen_eq (h : Filled c streams pool r) : hasScreen r.1 = hasScreen streams := by
  rw [Bool.eq_iff_iff, hasScreen_iff, hasScreen_iff]
  constructor
  · rintro ⟨s, hs, hk⟩
    obtain ⟨s₀, hs₀, hk₀⟩ := exists_kind_of_blank h.blank.symm hs
    exact ⟨s₀, hs₀, hk₀.trans hk⟩
  · rintro ⟨s, hs, hk⟩
    obtain ⟨s₀, hs₀, hk₀⟩ := exists_kind_of_blank h.blank hs
    exact ⟨s₀, hs₀, hk₀.trans hk⟩

lemma Filled.no_unmet (h : Filled c streams pool r) (hpos : 0 < r.2) {a : Allocation}
    (ha : a.streams = r.1) : hasUnmetDemand c a = false := by
  unfold hasUnmetDemand
  rw [ha, h.hasScreen_eq, any_eq_false]
  intro s hs hlt
  split at hlt
  · rename_i hk
    have hlevel : s.allocatedBps = _ := h.screens.eq hpos hs (mem_streamClass.2 hk)
    rw [hlevel, decide_eq_true_eq] at hlt
    exact Nat.lt_irrefl _ hlt
  · rename_i hk
    have hlevel : s.allocatedBps = _ := h.cameras.eq hpos hs (mem_streamClass.2 hk)
    rw [hlevel, decide_eq_true_eq] at hlt
    exact Nat.lt_irrefl _ hlt
  · cases hlt

/-- **The laws of the allocator.** For every configuration that passes the validation, the pool
and the reserve make up the estimate, the streams' rates and what is left make up the pool, caps
hold, cameras wait for the screens, streams of one kind are treated alike, nothing is left over
while a stream could use it, and publishers' totals add up. -/
theorem bandwidth_laws (c : Config) (hc : configValidate c = true) (inputs : List StreamInput)
    (estimatedBps : ℕ) : Lawful c estimatedBps (allocate c inputs estimatedBps) := by
  have ho := ordered_of_valid hc
  have hpool : videoPool c estimatedBps = estimatedBps * c.bandwidthVideoPoolPercent / 100 := by
    rw [videoPool_eq, ho.poolPercent]
  have hreserve : videoPool c estimatedBps + (estimatedBps - videoPool c estimatedBps) =
      estimatedBps := Nat.add_sub_of_le (videoPool_le ho _)
  unfold allocate
  dsimp only
  split
  · exact ⟨hpool, hreserve, rfl, Nat.zero_add _, nofun, nofun, nofun, nofun, nofun,
      fun _ hne => absurd rfl hne, nodup_nil, fun id => ⟨nofun, nofun⟩, nofun⟩
  set pool := videoPool c estimatedBps
  have hf := filled_fillAll ho (unset_streamsOf none (selectInputs inputs)) pool
  have hkind := @kind_of_mem_allocated c pool
  have ht := totals_foldl (fillAll c (selectStreams inputs) pool).1
  have htotal := hf.total
  unfold rateSum at htotal
  refine ⟨hpool, hreserve, rfl, by dsimp only; omega, ?_, ?_, ?_, ?_, ?_, ?_, ht.nodup,
    ht.mem_iff, ?_⟩
  · intro s hs hk
    rw [← ho.screenCap]
    exact hf.screens.le hs (mem_streamClass.2 hk)
  · intro s hs hk
    have hle : s.allocatedBps ≤ _ := hf.cameras.le hs (mem_streamClass.2 hk)
    rw [← ho.cameraCap]
    refine hle.trans ?_
    split
    · exact min_le_right _ _
    · exact le_rfl
  · rintro s hs hk ⟨s', hs', hk'⟩
    have hle : s.allocatedBps ≤ _ := hf.cameras.le hs (mem_streamClass.2 hk)
    have hscreen := hasScreen_iff.2 ⟨s', hs', hk'⟩
    rwa [← hf.hasScreen_eq, hscreen, if_pos rfl, ho.admission, ho.cameraCap] at hle
  · rw [← ho.screenPreferred]
    exact hf.priority
  · intro s hs s' hs' heq
    rcases hkind hs with hk | hk
    · exact hf.screens.near hs hs' (mem_streamClass.2 hk) (mem_streamClass.2 (heq ▸ hk))
    · exact hf.cameras.near hs hs' (mem_streamClass.2 hk) (mem_streamClass.2 (heq ▸ hk))
  · intro hpos _
    exact hf.no_unmet (by dsimp only at hpos; omega) rfl
  · intro p hp hlt
    have hsum := ht.sum p hp
    rw [hsum]
    apply min_eq_left
    exact Nat.le_sub_one_of_lt hlt

/-- A screen and two cameras at three megabits: the cameras are admitted, the screen has the
rest. -/
theorem bandwidth_laws_three :
    let inputs := [⟨5, 0, 1, .camera, true⟩, ⟨6, 1, 1, .screen, true⟩, ⟨6, 1, 1, .camera, true⟩]
    configValidate .defaults = true ∧
      (allocate .defaults inputs 3000000).streams.map StreamAllocation.allocatedBps =
        [240000, 240000, 2070000] ∧
      Lawful .defaults 3000000 (allocate .defaults inputs 3000000) :=
  ⟨by decide +kernel, by decide +kernel, bandwidth_laws .defaults (by decide +kernel) _ _⟩

end MezonSfu.Bandwidth
