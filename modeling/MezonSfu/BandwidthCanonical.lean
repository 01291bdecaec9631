import MezonSfu.BandwidthLaws
import MezonSfu.LeastKeys

/-!
What an allocation depends on: the set of usable stream keys and, upwards, the estimate.

The selection is a bounded insertion sort over the keys, so order, repetitions and unusable inputs
leave no trace. The passes keep the filling of a smaller pool behind that of a larger one.
-/

namespace MezonSfu.Bandwidth

open WaterFill LeastKeys List

/-- Slot, publisher, kind and generation, in the order in which they are compared. -/
abbrev StreamKey := ℕ ×ₗ ℕ ×ₗ ℕ ×ₗ ℕ

def StreamInput.key (x : StreamInput) : StreamKey :=
  toLex (x.remoteSlot, toLex (x.publisherPeerId, toLex (x.kind.code, x.assignmentGeneration)))

def StreamAllocation.key (s : StreamAllocation) : StreamKey :=
  toLex (s.remoteSlot, toLex (s.publisherPeerId, toLex (s.kind.code, s.assignmentGeneration)))

instance (x : StreamInput) : Decidable x.Usable :=
  inferInstanceAs (Decidable (x.active = true ∧ x.publisherPeerId ≠ 0 ∧ x.kind ≠ .other))

def validKeys (inputs : List StreamInput) : Finset StreamKey :=
  ((inputs.filter fun x => decide x.Usable).map StreamInput.key).toFinset

variable {x y : StreamInput} {order inputs : List StreamInput}

lemma code_inj {k k' : StreamKind} : k.code = k'.code ↔ k = k' := by
  cases k <;> cases k' <;> decide

lemma streamKeyLess_eq (x y : StreamInput) : streamKeyLess x y = decide (x.key < y.key) := by
  unfold streamKeyLess StreamInput.key
  simp only [Prod.Lex.toLex_lt_toLex]
  split_ifs with h1 h2 h3
  · simp [h1]
  · rw [not_not] at h1
    simp [h1, h2]
  · rw [not_not] at h1 h2
    have := code_inj.not.2 h3
    simp [h1, h2, this]
  · rw [not_not] at h1 h2 h3
    simp [h1, h2, h3]

lemma sameStreamKey_eq (x y : StreamInput) : sameStreamKey x y = decide (x.key = y.key) := by
  rw [Bool.eq_iff_iff, decide_eq_true_eq]
  unfold sameStreamKey StreamInput.key
  simp only [Bool.and_eq_true, decide_eq_true_eq, EmbeddingLike.apply_eq_iff_eq, Prod.mk.injEq,
    code_inj]
  tauto

/-! ### The selection -/

lemma map_key_insert (hx : ¬ order.any (sameStreamKey x)) :
    (insertInput order x).map StreamInput.key =
      consider maxStreams (order.map StreamInput.key) x.key := by
  set keys := order.map StreamInput.key
  have hnot : x.key ∉ order.map StreamInput.key := by
    intro hin
    obtain ⟨y, hy, he⟩ := mem_map.1 hin
    refine hx (any_eq_true.2 ⟨y, hy, ?_⟩)
    rw [sameStreamKey_eq, decide_eq_true_eq, he]
  have hless : streamKeyLess x = (fun k => decide (x.key < k)) ∘ StreamInput.key :=
    funext (streamKeyLess_eq x)
  have hlast : keys.getLast?.all (fun k => !decide (x.key < k)) =
      order.getLast?.all fun y => !streamKeyLess x y := by
    rw [List.getLast?_map, Option.all_map, hless]
    rfl
  have hkept : (if keys.length < maxStreams then order.map StreamInput.key
      else keys.dropLast) =
      (if order.length < maxStreams then order else order.dropLast).map StreamInput.key := by
    rw [length_map, ← map_dropLast]
    split <;> rfl
  unfold insertInput consider
  rw [if_neg hnot, hlast, hkept, length_map]
  split
  · rfl
  · unfold insertDown
    dsimp only
    rw [← map_reverse, takeWhile_map, ← hless, length_map, length_map,
      map_append, map_cons, map_take, map_reverse]

lemma unusable_iff : (!x.active || x.publisherPeerId = 0 || x.kind = .other) ↔ ¬ x.Usable := by
  unfold StreamInput.Usable
  simp only [Bool.or_eq_true, Bool.not_eq_true', decide_eq_true_eq, ← Bool.not_eq_true]
  tauto

lemma least_considerInput {s : Finset StreamKey}
    (h : Least maxStreams s (order.map StreamInput.key)) :
    Least maxStreams (if x.Usable then insert x.key s else s)
      ((considerInput order x).map StreamInput.key) := by
  unfold considerInput
  by_cases hu : x.Usable
  · rw [if_pos hu, if_neg fun hn => unusable_iff.1 hn hu]
    split
    · rename_i hsame
      obtain ⟨y, hy, he⟩ := any_eq_true.1 hsame
      rw [sameStreamKey_eq, decide_eq_true_eq] at he
      exact h.known (mem_map.2 ⟨y, hy, he.symm⟩)
    · rename_i hsame
      rw [map_key_insert hsame]
      exact h.consider x.key
  · rw [if_neg hu, if_pos (unusable_iff.2 hu)]
    exact h

/-- **The selection holds the least keys of the set, in order.** -/
lemma least_selectInputs (inputs : List StreamInput) :
    Least maxStreams (validKeys inputs) ((selectInputs inputs).map StreamInput.key) := by
  induction inputs using List.reverseRecOn with
  | nil => exact least_nil maxStreams
  | append_singleton l x ih =>
    have hstep := @least_considerInput x _ _ ih
    have hset : validKeys (l ++ [x]) = if x.Usable then insert x.key (validKeys l)
        else validKeys l := by
      unfold validKeys
      rw [filter_append, map_append, toFinset_append]
      split
      · rename_i hu
        rw [filter_singleton, decide_eq_true hu, Finset.insert_eq, Finset.union_comm]
        rfl
      · rename_i hu
        simp [hu]
    rw [hset]
    unfold selectInputs at hstep ⊢
    rw [foldl_append]
    exact hstep

def inputOfKey (k : StreamKey) : StreamInput where
  remoteSlot := (ofLex k).1
  publisherPeerId := (ofLex (ofLex k).2).1
  kind := match (ofLex (ofLex (ofLex k).2).2).1 with
    | 0 => .other
    | 1 => .camera
    | _ => .screen
  assignmentGeneration := (ofLex (ofLex (ofLex k).2).2).2
  active := true

lemma inputOfKey_key (h : x.Usable) : inputOfKey x.key = x := by
  obtain ⟨p, slot, g, kind, active⟩ := x
  obtain rfl : active := h.1
  cases kind <;> rfl

section

variable (inputs : List StreamInput)

lemma selectInputs_eq :
    selectInputs inputs = ((validKeys inputs).sort.take maxStreams).map inputOfKey := by
  rw [← (least_selectInputs inputs).eq, map_map]
  symm
  rw [map_congr_left (g := id), map_id]
  intro y hy
  exact inputOfKey_key (mem_selectInputs hy).2

lemma streamsOf_eq {prev : Option StreamInput} (hs : (order.map StreamInput.key).Pairwise (· < ·))
    (hp : ∀ p ∈ prev, ∀ y ∈ order, p.key < y.key) :
    streamsOf prev order = order.map StreamInput.stream := by
  induction order generalizing prev with
  | nil => rfl
  | cons y order ih =>
    rw [map_cons, pairwise_cons] at hs
    have hnext := @ih (some y) hs.2 (by
      rintro p hp' z hz
      cases hp'
      exact hs.1 z.key (mem_map_of_mem hz))
    unfold streamsOf
    rw [hnext, if_neg, map_cons]
    intro hsame
    rw [Option.any_eq_true] at hsame
    obtain ⟨p, hp', he⟩ := hsame
    rw [sameStreamKey_eq, decide_eq_true_eq] at he
    exact (hp p hp' y (.head _)).ne' he

lemma selectStreams_eq : selectStreams inputs = (selectInputs inputs).map StreamInput.stream :=
  streamsOf_eq (least_selectInputs inputs).sorted nofun

lemma selectStreams_keys :
    (selectStreams inputs).map StreamAllocation.key = (validKeys inputs).sort.take maxStreams := by
  rw [selectStreams_eq, map_map, ← (least_selectInputs inputs).eq]
  rfl

end

variable {c : Config} {t pool pool' : ℕ} {kind : StreamKind} {streams : List StreamAllocation}
  {p q : List StreamAllocation × ℕ}

/-- The filling of the first pool is behind that of the second. -/
abbrev Behind (p q : List StreamAllocation × ℕ) : Prop := (streamClass .screen).Behind p q

lemma Behind.fillClass (h : Behind p q) (heven : EvenAt kind t p) (u : ℕ) :
    Behind (fillClass kind u p) (fillClass kind u q) :=
  Class.Behind.fill rfl h heven

lemma Unset.fillAll_behind (hu : Unset streams) (hc : c.Ordered) (hle : pool ≤ pool') :
    Behind (fillAll c streams pool) (fillAll c streams pool') := by
  set r := fillScreens c (streams, pool)
  have hstart : Behind (streams, pool) (streams, pool') := .inl ⟨rfl, hle⟩
  -- the screens
  have hscreens : EvenAt .screen 0 (streams, pool) := hu.evenAt
  have hadmitted := hstart.fillClass hscreens (min c.admissionBps c.screenCapBps)
  have hpreferred : Behind r (fillScreens c (streams, pool')) :=
    hadmitted.fillClass (hscreens.same (Nat.zero_le _)) c.screenPreferredBps
  have hscreens' : EvenAt .screen c.screenPreferredBps r := fillScreens_screens hc hu
  -- the cameras
  have hcameras : EvenAt .camera 0 r := hu.evenAt_fillScreens
  have hbehind : Behind (fillCameras c r)
      (fillCameras c (fillScreens c (streams, pool'))) := hpreferred.fillClass hcameras _
  -- the rest
  unfold fillAll fillRest
  split
  · have hlevel : EvenAt .screen c.screenPreferredBps
        (fillCameras c r) := hscreens'.other StreamKind.noConfusion
    exact (hbehind.fillClass hlevel _).fillClass (hlevel.same hc.preferred_le_mid) _
  · have hlevel : EvenAt .camera (min c.admissionBps c.cameraCapBps)
        (fillCameras c r) := hcameras.same (Nat.zero_le _)
    exact (hbehind.fillClass hlevel _).fillClass
      (hlevel.same ((min_le_left _ _).trans hc.admission_le_cameraMid)) _

/-! ### Allocations -/

variable {e e' : ℕ}

lemma videoPool_mono (hle : e ≤ e') : videoPool c e ≤ videoPool c e' := by
  rw [videoPool_eq, videoPool_eq]
  exact Nat.div_le_div_right (Nat.mul_le_mul_right _ hle)

lemma fillAll_nil (c : Config) (pool : ℕ) : (fillAll c [] pool).1 = [] :=
  map_eq_nil_iff.1 (@blank_fillAll c pool [])

lemma allocate_eq (c : Config) (inputs : List StreamInput) (hpool : videoPool c e ≠ 0) :
    allocate c inputs e =
      let streams := (fillAll c (selectStreams inputs) (videoPool c e)).1
      ⟨e, e - videoPool c e, videoPool c e, rateSum streams, videoPool c e - rateSum streams,
        streams, streams.foldl addPublisher []⟩ := by
  unfold allocate
  by_cases hnil : inputs = []
  · have hstreams : (fillAll c (selectStreams inputs) (videoPool c e)).1 = [] := by
      rw [hnil]
      exact fillAll_nil c _
    rw [if_pos (.inl hnil), hstreams]
    rfl
  · rw [if_neg (not_or.2 ⟨hnil, hpool⟩)]
    rfl

lemma allocate_zero (c : Config) (inputs : List StreamInput) (hpool : videoPool c e = 0) :
    allocate c inputs e = ⟨e, e - videoPool c e, videoPool c e, 0, videoPool c e, [], []⟩ :=
  if_pos (.inr hpool)

lemma allocate_congr {A B : List StreamInput} (c : Config) (e : ℕ)
    (h : validKeys A = validKeys B) : allocate c A e = allocate c B e := by
  have hselect : selectStreams A = selectStreams B := by
    rw [selectStreams_eq, selectStreams_eq, selectInputs_eq, selectInputs_eq, h]
  by_cases hpool : videoPool c e = 0
  · rw [allocate_zero c A hpool, allocate_zero c B hpool]
  · rw [allocate_eq c A hpool, allocate_eq c B hpool, hselect]

lemma fillAll_keys (c : Config) (streams : List StreamAllocation) (pool : ℕ) :
    (fillAll c streams pool).1.map StreamAllocation.key = streams.map StreamAllocation.key := by
  have hkey : StreamAllocation.key = StreamAllocation.key ∘ StreamAllocation.blank := rfl
  rw [hkey, ← map_map, ← map_map, blank_fillAll]

lemma allocate_keys (c : Config) (inputs : List StreamInput) (e : ℕ) :
    (allocate c inputs e).streams.map StreamAllocation.key =
      if videoPool c e = 0 then [] else (validKeys inputs).sort.take maxStreams := by
  split
  · rename_i hpool
    rw [allocate_zero c inputs hpool]
    rfl
  · rename_i hpool
    rw [allocate_eq c inputs hpool, ← selectStreams_keys]
    exact fillAll_keys c _ _

lemma exists_of_below {l l' : List StreamAllocation} (h : (streamClass .screen).Below l l')
    (hkeys : l.map StreamAllocation.key = l'.map StreamAllocation.key) {s : StreamAllocation}
    (hs : s ∈ l) : ∃ s' ∈ l', s'.key = s.key ∧ s.allocatedBps ≤ s'.allocatedBps := by
  induction h with
  | nil => cases hs
  | cons hab _ ih =>
    rw [map_cons, map_cons, List.cons.injEq] at hkeys
    rcases mem_cons.1 hs with rfl | hs
    · exact ⟨_, .head _, hkeys.1.symm, hab⟩
    · obtain ⟨s', hs', h'⟩ := ih hkeys.2 hs
      exact ⟨s', .tail _ hs', h'⟩

lemma allocate_mono (hc : c.Ordered) (hle : e ≤ e') (inputs : List StreamInput)
    {s : StreamAllocation} (hs : s ∈ (allocate c inputs e).streams) :
    ∃ s' ∈ (allocate c inputs e').streams, s'.key = s.key ∧ s.allocatedBps ≤ s'.allocatedBps := by
  by_cases hpool : videoPool c e = 0
  · rw [allocate_zero c inputs hpool] at hs
    cases hs
  have hmono : videoPool c e ≤ videoPool c e' := videoPool_mono hle
  have hpool' : videoPool c e' ≠ 0 := by omega
  rw [allocate_eq c inputs hpool] at hs
  rw [allocate_eq c inputs hpool']
  have hu : Unset (selectStreams inputs) := unset_streamsOf none _
  exact exists_of_below (hu.fillAll_behind hc hmono).below
    ((fillAll_keys c _ _).trans (fillAll_keys c _ _).symm) hs

/-- **An allocation depends on the set of streams only, and grows with the estimate.** Two lists
with the same active and valid keys get the same allocation; as soon as there is a pool to share
it lists the sixteen least keys in order; and with a valid configuration no stream gets less out of
a larger estimate. -/
theorem allocate_canonical_mono (c : Config) (inputs : List StreamInput) (e : ℕ) :
    (∀ inputs', validKeys inputs' = validKeys inputs → allocate c inputs' e = allocate c inputs e) ∧
      (allocate c inputs e).streams.map StreamAllocation.key =
        (if videoPool c e = 0 then [] else (validKeys inputs).sort.take maxStreams) ∧
      (configValidate c = true → ∀ e', e ≤ e' → ∀ s ∈ (allocate c inputs e).streams,
        ∃ s' ∈ (allocate c inputs e').streams,
          s'.key = s.key ∧ s.allocatedBps ≤ s'.allocatedBps) := by
  refine ⟨fun inputs' h => allocate_congr c e h, allocate_keys c inputs e, ?_⟩
  intro hc e' hle s hs
  exact allocate_mono (ordered_of_valid hc) hle inputs hs

/-- A screen and a camera, the camera twice and an inactive stream between them. -/
theorem allocate_canonical_mono_two :
    let screen : StreamInput := ⟨6, 1, 1, .screen, true⟩
    let camera : StreamInput := ⟨5, 0, 1, .camera, true⟩
    let idle : StreamInput := ⟨7, 2, 1, .camera, false⟩
    validKeys [camera, idle, screen, camera] = validKeys [screen, camera] ∧
      allocate .defaults [camera, idle, screen, camera] 3000000 =
        allocate .defaults [screen, camera] 3000000 ∧
      (allocate .defaults [screen, camera] 3000000).streams.map StreamAllocation.allocatedBps =
        [240000, 2310000] ∧
      ∀ s ∈ (allocate .defaults [screen, camera] 3000000).streams,
        ∃ s' ∈ (allocate .defaults [screen, camera] 4000000).streams,
          s'.key = s.key ∧ s.allocatedBps ≤ s'.allocatedBps := by
  intro screen camera idle
  have hkeys : validKeys [camera, idle, screen, camera] = validKeys [screen, camera] := by
    decide +kernel
  obtain ⟨hsame, -, hmono⟩ := allocate_canonical_mono .defaults [screen, camera] 3000000
  exact ⟨hkeys, hsame _ hkeys, by decide +kernel, hmono (by decide +kernel) 4000000 (by decide)⟩

end MezonSfu.Bandwidth
