import MezonSfu.RoomDuality
import MezonSfu.ScreenPriority

/-!
The rates a publisher is asked for, against the rates its subscribers have for it.

Every subscriber leaves in the slot of a publisher what its allocator has for the publisher's
streams, and the publisher takes the maximum over its routes. Rates too low for a source count as
nothing; the subscribers compare with a constant here, not with the configured rate. What is sent
is paced.
-/

namespace MezonSfu.Bandwidth

open RemoteSlots RoomGraph Function List Option

variable {c : Config}

/-- A call of `sfu_svc_update_layers`. -/
structure Update where
  subscriber : SessionId
  bitrateBps : ℕ
  nowUs : ℕ
deriving DecidableEq, Repr

def applyUpdate (c : Config) (g : Graph) (layers : SessionId → LayerState) (u : Update) :
    SessionId → LayerState :=
  update layers u.subscriber
    (updateLayers c (some (g.session u.subscriber).receivers) u.bitrateBps u.nowUs
      (layers u.subscriber))

def applyUpdates (c : Config) (g : Graph) (round : List Update)
    (layers : SessionId → LayerState) : SessionId → LayerState :=
  round.foldl (applyUpdate c g) layers

def lastUpdate (round : List Update) (s : SessionId) : Option Update :=
  (round.filter fun u => u.subscriber = s).getLast?

def contributionsOf (layers : SessionId → LayerState) (s : SessionId) : ℕ → RembContribution :=
  (layers s).contributions

variable {round : List Update} {g : Graph} {e : ReceiverEntry} {generation nowUs slot : ℕ}
  {routes : List FanoutRoute} {kind : StreamKind} {cells cells' : SessionId → ℕ → RembContribution}
  {r : FanoutRoute} {bundle : FanoutBundle} {p : SessionId}

lemma contributions_applyUpdates {s : SessionId} {u : Update} (h : lastUpdate round s = some u)
    (layers : SessionId → LayerState) :
    ∃ cells, contributionsOf (applyUpdates c g round layers) s =
      contribute (layerAllocation c (some (g.session s).receivers) u.bitrateBps) u.nowUs
        (g.session s).receivers.entries cells := by
  unfold applyUpdates contributionsOf
  induction round using List.reverseRecOn with
  | nil => cases h
  | append_singleton round v ih =>
    unfold lastUpdate at h ih
    rw [foldl_append, foldl_cons, foldl_nil]
    rw [filter_append] at h
    by_cases hv : v.subscriber = s
    · rw [filter_cons_of_pos (by simpa using hv), filter_nil,
        List.getLast?_append, List.getLast?_singleton, some_or, some.injEq] at h
      rw [← h, ← hv]
      unfold applyUpdate
      rw [update_self]
      exact ⟨_, rfl⟩
    · rw [filter_cons_of_neg (by simpa using hv), filter_nil, append_nil] at h
      unfold applyUpdate
      rw [update_of_ne (Ne.symm hv)]
      exact ih h

lemma contribute_at (a : Allocation) (nowUs : ℕ) {l : List (ℕ × ReceiverEntry)}
    (hsorted : l.Pairwise fun x y => x.1 < y.1) (hmem : (slot, e) ∈ l)
    (hslot : slot < maxRemoteSlots) (hgen : e.assignmentGeneration ≠ 0)
    (cells : ℕ → RembContribution) : contribute a nowUs l cells slot = contribution a e nowUs := by
  unfold contribute
  induction l using List.reverseRecOn with
  | nil => cases hmem
  | append_singleton l x ih =>
    obtain ⟨hl, -, hx⟩ := pairwise_append.1 hsorted
    rw [foldl_append, foldl_cons, foldl_nil]
    unfold writeRembContribution
    rcases mem_append.1 hmem with hin | hin
    · -- a later write is to another slot
      have hne : slot ≠ x.1 := (hx _ hin x (.head _)).ne
      split
      · exact ih hl hin
      · rw [update_of_ne hne]
        exact ih hl hin
    · rw [← mem_singleton.1 hin, if_neg, update_self]
      rw [not_or, not_le]
      exact ⟨hslot, hgen⟩

/-! ### One pass -/

lemma rembPass_eq (f : FanoutRoute → ℕ)
    (h : ∀ r ∈ routes, routeContribution cells nowUs kind r = some (f r)) :
    rembPass cells nowUs kind routes = ((routes.map f).foldl max 0, routes.length) := by
  unfold rembPass
  induction routes using List.reverseRecOn with
  | nil => rfl
  | append_singleton routes r ih =>
    rw [foldl_append, foldl_cons, foldl_nil,
      ih fun r hr => h r (mem_append_left _ hr), h r (mem_append_right _ (.head _)),
      map_append, foldl_append, length_append]
    rw [map_singleton, foldl_cons, foldl_nil, length_singleton, Prod.mk.injEq]
    refine ⟨?_, rfl⟩
    split <;> omega

lemma rembPass_congr (h : ∀ r ∈ routes, routeContribution cells nowUs kind r =
      routeContribution cells' nowUs kind r) :
    rembPass cells nowUs kind routes = rembPass cells' nowUs kind routes := by
  unfold rembPass
  induction routes using List.reverseRecOn with
  | nil => rfl
  | append_singleton routes r ih =>
    rw [foldl_append, foldl_append, ih fun r hr => h r (mem_append_left _ hr), foldl_cons,
      foldl_nil, foldl_cons, foldl_nil, h r (mem_append_right _ (.head _))]

/-- A contribution that is too old, or for another assignment of the slot. -/
def RembContribution.Void (x : RembContribution) (generation nowUs : ℕ) : Prop :=
  x.assignmentGeneration ≠ generation ∨ contributionMaxAgeUs < nowUs - x.updatedAtUs

lemma read_of_void {cells : ℕ → RembContribution} (h : (cells slot).Void generation nowUs) :
    readRembContribution cells slot generation nowUs contributionMaxAgeUs = none := by
  unfold readRembContribution
  dsimp only
  split
  · rfl
  split
  · rfl
  · rename_i hread
    rcases h with hgen | hold
    · exact absurd (.inl hgen) hread
    · rw [if_pos hold]

lemma read_of_fresh {cells : ℕ → RembContribution} (hslot : slot < maxRemoteSlots)
    (hzero : generation ≠ 0) (hgen : (cells slot).assignmentGeneration = generation)
    (hpos : 0 < (cells slot).updatedAtUs) (hle : (cells slot).updatedAtUs ≤ nowUs)
    (hage : nowUs - (cells slot).updatedAtUs ≤ contributionMaxAgeUs) :
    readRembContribution cells slot generation nowUs contributionMaxAgeUs =
      some ((cells slot).cameraBitrateBps, (cells slot).screenBitrateBps) := by
  unfold readRembContribution
  rw [if_neg, if_neg, if_neg (not_lt.2 hage)]
  · rw [not_or, not_or, not_not, not_lt]
    exact ⟨hgen, hpos.ne', hle⟩
  · rw [not_or, not_le]
    exact ⟨hslot, hzero⟩

lemma routeContribution_of_void
    (h : (cells r.subscriber r.remoteSlot).Void r.assignmentGeneration nowUs) :
    routeContribution cells nowUs kind r = none := by
  unfold routeContribution
  rw [read_of_void h]
  rfl

/-- The contribution is looked up by the publisher alone, which has one entry. -/
lemma allocationForStream_eq {snap : ReceiverSnapshot} (bitrateBps : ℕ)
    (hone : ∀ x ∈ snap.entries, x.2.publisherPeerId = e.publisherPeerId →
      x = (slot, e)) (kind : StreamKind) :
    let r := layerAllocation c (some snap) bitrateBps
    allocationForStream r e.publisherPeerId kind = r.rate
        ⟨e.publisherPeerId, slot, e.assignmentGeneration, kind, true⟩ := by
  dsimp only
  rw [layerAllocation_eq]
  have hstreams := allocate_streams c (offered snap) bitrateBps
  by_cases hempty : offered snap = [] ∨ videoPool c bitrateBps = 0
  · rw [if_pos hempty] at hstreams
    unfold allocationForStream Allocation.rate
    rw [hstreams]
    rfl
  have hserves := serves_offered snap bitrateBps hempty
  unfold allocationForStream
  cases hs : (allocate c (offered snap) bitrateBps).streams.find? fun s =>
      s.publisherPeerId = e.publisherPeerId ∧ s.kind = kind with
  | none =>
    rcases rate_cases (allocate c (offered snap) bitrateBps)
      ⟨e.publisherPeerId, slot, e.assignmentGeneration, kind, true⟩ with
      ⟨s, hmem, hkey, -⟩ | ⟨-, hzero⟩
    · have hnot := List.find?_eq_none.1 hs s hmem
      have h1 : s.publisherPeerId = e.publisherPeerId :=
        congrArg StreamAllocation.publisherPeerId hkey
      have h2 : s.kind = kind := congrArg StreamAllocation.kind hkey
      rw [decide_eq_true_eq] at hnot
      exact absurd ⟨h1, h2⟩ hnot
    · rw [hzero]
      rfl
  | some s =>
    have hmem := mem_of_find?_eq_some hs
    have hfound := List.find?_some hs
    rw [decide_eq_true_eq] at hfound
    obtain ⟨x, hx, hkey⟩ := hserves.mem_of s hmem
    -- the stream is of the publisher's entry
    have hentry : x = ⟨e.publisherPeerId, slot, e.assignmentGeneration, kind, true⟩ := by
      have h1 : s.publisherPeerId = x.publisherPeerId :=
        congrArg StreamAllocation.publisherPeerId hkey
      have h2 : s.kind = x.kind := congrArg StreamAllocation.kind hkey
      obtain ⟨-, y, hy, rfl | rfl⟩ := mem_offered hx
      · rw [hone y hy (h1.symm.trans hfound.1)] at h2 ⊢
        rw [← hfound.2, h2]
        rfl
      · rw [hone y hy (h1.symm.trans hfound.1)] at h2 ⊢
        rw [← hfound.2, h2]
        rfl
    rw [← hentry, hserves.rate_eq hmem hkey]
    rfl

/-- The rate that the allocator of a route's subscriber has for the publisher, in its last
update. -/
def assignedRate (c : Config) (g : Graph) (round : List Update) (p : SessionId)
    (kind : StreamKind) (r : FanoutRoute) : ℕ :=
  ((lastUpdate round r.subscriber).map fun u =>
    (layerAllocation c (some (g.session r.subscriber).receivers) u.bitrateBps).rate
      ⟨(g.session p).peerId, r.remoteSlot, r.assignmentGeneration, kind, true⟩).getD 0

def JustUpdated (round : List Update) (nowUs : ℕ) (r : FanoutRoute) : Prop :=
  ∃ u, lastUpdate round r.subscriber = some u ∧ 0 < u.nowUs ∧ u.nowUs ≤ nowUs ∧
    nowUs - u.nowUs ≤ contributionMaxAgeUs

lemma mem_eligibleRoutes (h : r ∈ eligibleRoutes bundle kind) : ∃ i, bundle.cells i = some r := by
  obtain ⟨⟨i, r'⟩, hmem, rfl⟩ := mem_map.1 (mem_filter.1 h).1
  exact ⟨i, (SlotMap.mem_entries.1 hmem).2⟩

/-- **A route contributes** the rate its subscriber has for the publisher, as demanded. -/
lemma routeContribution_eq (hg : Coherent g) (hp : g.Member p) (hkind : kind ≠ .other)
    (hr : r ∈ eligibleRoutes (g.session p).fanoutBundle kind) (hfresh : JustUpdated round nowUs r)
    (layers : SessionId → LayerState) :
    routeContribution (contributionsOf (applyUpdates c g round layers)) nowUs kind r =
      some (sourceDemandBps (assignedRate c g round p kind r)) := by
  obtain ⟨i, hi⟩ := mem_eligibleRoutes hr
  obtain ⟨u, hu, hpos, hle, hage⟩ := hfresh
  have hs := ((hg.linked p hp).route i r hi).1
  have hdual := hg.dual_pair hp hs
  -- the entry on the other side
  obtain ⟨j, e, he⟩ := hdual.route_iff_entry.1 ⟨i, r, hi, rfl⟩
  obtain ⟨hslot, hgen⟩ := hdual.same i r j e ⟨hi, rfl⟩ he
  have hls := hg.linked r.subscriber hs
  have hok := hls.entry j e he.1
  have hlt := hls.receivers.lt j e he.1
  rw [hok.slot] at hslot
  have hid : e.publisherPeerId = (g.session p).peerId := by rw [hok.peerId, he.2]
  have hone : ∀ x ∈ (g.session r.subscriber).receivers.entries,
      x.2.publisherPeerId = e.publisherPeerId → x = (j, e) := by
    rintro ⟨k, e'⟩ hx hsame
    have hk := (SlotMap.mem_entries.1 hx).2
    have hok' := hls.entry k e' hk
    rw [hok'.peerId, hok.peerId] at hsame
    have hsub := hg.ids _ _ hok'.member hok.member hsame
    have hkj := hls.receivers.inj k j e' e hk he.1 hsub
    rw [hkj, he.1, some.injEq] at hk
    rw [hkj, hk]
  obtain ⟨cells, hcells⟩ := contributions_applyUpdates (c := c) (g := g) hu layers
  have hcell := contribute_at (layerAllocation c (some (g.session r.subscriber).receivers)
    u.bitrateBps) u.nowUs SlotMap.pairwise_entries (SlotMap.mem_entries.2 ⟨hlt, he.1⟩) hlt
    hok.generation cells
  have hassigned : assignedRate c g round p kind r =
      allocationForStream (layerAllocation c (some (g.session r.subscriber).receivers)
        u.bitrateBps) e.publisherPeerId kind := by
    rw [allocationForStream_eq u.bitrateBps hone, assignedRate, hu, map_some,
      getD_some, hid, hslot, hgen]
  unfold routeContribution
  rw [hassigned, hcells, hslot, hgen, read_of_fresh hlt hok.generation (by rw [hcell]; rfl)
    (by rw [hcell]; exact hpos) (by rw [hcell]; exact hle) (by rw [hcell]; exact hage), hcell]
  cases kind with
  | other => exact absurd rfl hkind
  | camera | screen => rfl

def targetFor (targets : ℕ × ℕ) (kind : StreamKind) : ℕ :=
  if kind = .screen then targets.2 else targets.1

/-- With a contribution from every route the target is the maximum. -/
lemma rembTargets_eq (hkind : kind ≠ .other) (f : FanoutRoute → ℕ)
    (hne : eligibleRoutes bundle kind ≠ [])
    (h : ∀ r ∈ eligibleRoutes bundle kind, routeContribution cells nowUs kind r = some (f r))
    (lastScreenRembBps : ℕ) :
    targetFor (rembTargets c bundle cells nowUs lastScreenRembBps) kind =
      ((eligibleRoutes bundle kind).map f).foldl max 0 := by
  have hpass := rembPass_eq f h
  unfold rembTargets targetFor
  dsimp only
  cases kind with
  | other => exact absurd rfl hkind
  | camera => rw [if_neg StreamKind.noConfusion, hpass]
  | screen =>
    rw [if_pos rfl, hpass]
    rw [if_neg]
    rintro ⟨-, -, hlen, -⟩
    exact hne (length_eq_zero_iff.1 hlen)

/-- A rate below the configured admission rate counts as nothing. -/
def countedRate (c : Config) (bps : ℕ) : ℕ := if bps < c.bandwidthSourceAdmissionBps then 0 else bps

/-- The targets of publishers are the maxima of what their subscribers have for them, and
contributions that are void have no influence. -/
structure RembReflects (c : Config) : Prop where
  maximum : ∀ (g₀ : Graph) (ops : List RoomGraph.Op), Fresh g₀ →
    Runs.Along RoomGraph.step JoinsDistinct g₀ ops →
    let g := Runs.run RoomGraph.step g₀ ops
    ∀ (layers : SessionId → LayerState) (round : List Update) (p : SessionId)
      (nowUs lastScreenRembBps : ℕ) (kind : StreamKind), g.Member p → kind ≠ .other →
      (∀ r ∈ eligibleRoutes (g.session p).fanoutBundle kind, JustUpdated round nowUs r) →
      eligibleRoutes (g.session p).fanoutBundle kind ≠ [] →
      targetFor (rembTargets c (g.session p).fanoutBundle
          (contributionsOf (applyUpdates c g round layers)) nowUs lastScreenRembBps) kind =
        ((eligibleRoutes (g.session p).fanoutBundle kind).map fun r =>
          countedRate c (assignedRate c g round p kind r)).foldl max 0
  void : ∀ (bundle : FanoutBundle) (cells cells' : SessionId → ℕ → RembContribution)
    (nowUs lastScreenRembBps : ℕ),
    (∀ i r, bundle.cells i = some r →
      cells r.subscriber r.remoteSlot = cells' r.subscriber r.remoteSlot ∨
        ((cells r.subscriber r.remoteSlot).Void r.assignmentGeneration nowUs ∧
          (cells' r.subscriber r.remoteSlot).Void r.assignmentGeneration nowUs)) →
    rembTargets c bundle cells nowUs lastScreenRembBps =
      rembTargets c bundle cells' nowUs lastScreenRembBps

lemma rembTargets_void (lastScreenRembBps : ℕ) (h : ∀ i r, bundle.cells i = some r →
      cells r.subscriber r.remoteSlot = cells' r.subscriber r.remoteSlot ∨
        ((cells r.subscriber r.remoteSlot).Void r.assignmentGeneration nowUs ∧
          (cells' r.subscriber r.remoteSlot).Void r.assignmentGeneration nowUs)) :
    rembTargets c bundle cells nowUs lastScreenRembBps =
      rembTargets c bundle cells' nowUs lastScreenRembBps := by
  have hpass : ∀ kind, rembPass cells nowUs kind (eligibleRoutes bundle kind) =
      rembPass cells' nowUs kind (eligibleRoutes bundle kind) := by
    intro kind
    apply rembPass_congr
    intro r hr
    obtain ⟨i, hi⟩ := mem_eligibleRoutes hr
    rcases h i r hi with hsame | ⟨hvoid, hvoid'⟩
    · unfold routeContribution readRembContribution
      rw [hsame]
    · rw [routeContribution_of_void hvoid, routeContribution_of_void hvoid']
  unfold rembTargets
  dsimp only
  rw [hpass, hpass]

/-- Whatever the configuration, a target is the maximum of what the subscribers demand. -/
lemma target_eq_demanded (hg : Coherent g) (layers : SessionId → LayerState) (round : List Update)
    (nowUs lastScreenRembBps : ℕ) (hp : g.Member p) (hkind : kind ≠ .other)
    (hfresh : ∀ r ∈ eligibleRoutes (g.session p).fanoutBundle kind, JustUpdated round nowUs r)
    (hne : eligibleRoutes (g.session p).fanoutBundle kind ≠ []) :
    targetFor (rembTargets c (g.session p).fanoutBundle
        (contributionsOf (applyUpdates c g round layers)) nowUs lastScreenRembBps) kind =
      ((eligibleRoutes (g.session p).fanoutBundle kind).map fun r =>
        sourceDemandBps (assignedRate c g round p kind r)).foldl max 0 :=
  rembTargets_eq hkind _ hne
    (fun r hr => routeContribution_eq hg hp hkind hr (hfresh r hr) layers) lastScreenRembBps

/-! ### One camera -/

lemma exists_videoPool_eq (h : c.Ordered) (pool : ℕ) :
    ∃ bitrateBps, videoPool c bitrateBps = pool := by
  set sum := pool * 100 + (c.poolPercent - 1)
  refine ⟨sum / c.poolPercent, ?_⟩
  have hpos := h.percent_pos
  have hle := h.percent_le
  have hdiv := Nat.div_add_mod sum c.poolPercent
  have hmod := Nat.mod_lt sum hpos
  rw [videoPool_eq, Nat.mul_comm]
  omega

lemma rate_sole_camera (h : c.Ordered) {x : StreamInput} (hx : x.Usable) (hk : x.kind = .camera)
    {bitrateBps : ℕ} (hpos : 0 < videoPool c bitrateBps)
    (hle : videoPool c bitrateBps ≤ c.cameraCapBps) :
    (allocate c [x] bitrateBps).rate x = videoPool c bitrateBps := by
  have hstreams := allocate_streams c [x] bitrateBps
  rw [if_neg (by simp [hpos.ne'])] at hstreams
  have hlen : [x].length ≤ maxStreams := by
    rw [length_singleton]
    decide
  have hselect : selectStreams [x] = [x.stream] :=
    perm_singleton.1 (selectStreams_perm hlen (by simpa using hx) (pairwise_singleton _ _))
  have hu : Unset (selectStreams [x]) := unset_streamsOf _ _
  have hf := filled_fillAll h hu (videoPool c bitrateBps)
  have hblank := hf.blank
  rw [hselect, map_singleton, map_eq_singleton_iff] at hblank
  obtain ⟨s, hs, hkey⟩ := hblank
  have hkind : s.kind = .camera := (congrArg StreamAllocation.kind hkey).trans hk
  have hserves : Serves (allocate c [x] bitrateBps) [x] :=
    serves_fillAll hlen (by simpa using hx) (pairwise_singleton _ _) hstreams
  rw [hselect, hs] at hstreams
  have hmem : s ∈ (allocate c [x] bitrateBps).streams := by
    rw [hstreams]
    exact .head _
  rw [hserves.rate_eq hmem hkey]
  have htotal := hf.total
  have hnoscreen : hasScreen [x.stream] = false := by
    unfold hasScreen
    simp [StreamInput.stream, hk]
  have hcameras := hf.cameras
  rw [hselect, hnoscreen, if_neg Bool.false_ne_true] at hcameras
  rw [hselect, hs] at htotal
  change s.allocatedBps + 0 + _ = _ at htotal
  by_cases hrest : 0 < (fillAll c [x.stream] (videoPool c bitrateBps)).2
  · have hcap : s.allocatedBps = _ :=
      hcameras.eq hrest (by rw [hs]; exact .head _) (mem_streamClass.2 hkind)
    omega
  · omega

/-- A publisher with a camera, and one who receives it. -/
def cameraOps : List RoomGraph.Op :=
  [.addPeer 1 .well, .addPeer 2 .well,
    .media 1 { Media.idle with uplinkVideo := ⟨11, 0, 96, 0, .vp9, true⟩ }, .refreshPeerStreams 1]

def cameraRoom : Graph := Runs.run RoomGraph.step newRoom cameraOps

def cameraRoute : FanoutRoute :=
  { subscriber := 2, videoSsrc := 11, videoRtxSsrc := 0, screenSsrc := 0, screenRtxSsrc := 0
    remoteSlot := 0, assignmentGeneration := 1, videoPt := 96, videoRtxPt := 0, screenPt := 0
    screenRtxPt := 0, eligible := ⟨false, true, false⟩ }

def untold : SessionId → LayerState := fun _ => ⟨fun _ => ⟨0, 0, 0, 0⟩, none, false, none⟩

lemma newRoom_fresh : Fresh newRoom := ⟨⟨7, rfl⟩, fun _ => ⟨rfl, rfl, rfl, rfl, rfl⟩⟩

lemma cameraRoom_facts : Runs.Along RoomGraph.step JoinsDistinct newRoom cameraOps ∧
    cameraRoom.Member 1 ∧ (cameraRoom.session 1).peerId = 1 ∧
    eligibleRoutes (cameraRoom.session 1).fanoutBundle .camera = [cameraRoute] ∧
    offered (cameraRoom.session 2).receivers = [⟨1, 0, 1, .camera, true⟩] := by
  decide +kernel

lemma justUpdated_cameraRoute (bitrateBps : ℕ) : JustUpdated [⟨2, bitrateBps, 1⟩] 1 cameraRoute :=
  ⟨⟨2, bitrateBps, 1⟩, rfl, Nat.one_pos, le_rfl, Nat.zero_le _⟩

/-- What the subscriber's allocator has for the camera is the whole pool. -/
lemma assignedRate_cameraRoute (h : c.Ordered) (bitrateBps : ℕ)
    (hpos : 0 < videoPool c bitrateBps) (hle : videoPool c bitrateBps ≤ c.cameraCapBps) :
    assignedRate c cameraRoom [⟨2, bitrateBps, 1⟩] 1 .camera cameraRoute =
      videoPool c bitrateBps := by
  unfold assignedRate
  exact rate_sole_camera h ⟨rfl, Nat.one_ne_zero, StreamKind.noConfusion⟩ rfl hpos hle

lemma cameraRoom_target (h : RembReflects c) (bitrateBps : ℕ) :
    sourceDemandBps (assignedRate c cameraRoom [⟨2, bitrateBps, 1⟩] 1 .camera cameraRoute) =
      countedRate c (assignedRate c cameraRoom [⟨2, bitrateBps, 1⟩] 1 .camera cameraRoute) := by
  set sub := cameraRoom.session 1
  obtain ⟨hids, hmember, -⟩ := cameraRoom_facts
  have hfresh : ∀ r ∈ eligibleRoutes sub.fanoutBundle .camera,
      JustUpdated [⟨2, bitrateBps, 1⟩] 1 r := by
    intro r hr
    rw [mem_singleton.1 hr]
    exact justUpdated_cameraRoute bitrateBps
  have hsome : eligibleRoutes sub.fanoutBundle .camera ≠ [] := by
    exact cons_ne_nil _ _
  have hclaimed := h.maximum newRoom cameraOps newRoom_fresh hids untold
    [⟨2, bitrateBps, 1⟩] 1 1 0 .camera hmember StreamKind.noConfusion hfresh hsome
  have hactual := target_eq_demanded (c := c) (newRoom_fresh.running_run hids).coherent untold
    [⟨2, bitrateBps, 1⟩] 1 0 hmember StreamKind.noConfusion hfresh hsome
  have hsame := hactual.symm.trans hclaimed
  change (List.map _ (eligibleRoutes sub.fanoutBundle .camera)).foldl max 0 =
    (List.map _ (eligibleRoutes sub.fanoutBundle .camera)).foldl max 0 at hsame
  exact hsame

/-- **Targets reflect allocations** in every room and every round of updates if and only if the
configured admission rate is the constant the subscribers compare with. -/
theorem publisher_remb_iff (c : Config) (hc : configValidate c = true) :
    RembReflects c ↔ c.bandwidthSourceAdmissionBps = sourceAdmissionBps := by
  have ho := ordered_of_valid hc
  constructor
  · intro hreflects
    by_contra hne
    -- a rate that one of the two comparisons lets pass
    obtain ⟨bitrateBps, hpool⟩ :=
      exists_videoPool_eq ho (min c.bandwidthSourceAdmissionBps sourceAdmissionBps)
    have hadmission := ho.admission_pos
    have hcap := ho.admission_le_cameraMid.trans ho.cameraMid_le_cap
    rw [ho.admission] at hadmission hcap
    have hconst : 0 < sourceAdmissionBps := by decide
    have hrate := assignedRate_cameraRoute ho bitrateBps (by omega) (by omega)
    have hclaimed := cameraRoom_target hreflects bitrateBps
    unfold sourceDemandBps countedRate at hclaimed
    split at hclaimed <;> split at hclaimed <;> omega
  · intro hconst
    refine ⟨?_, fun bundle cells cells' nowUs lastBps h => rembTargets_void lastBps h⟩
    intro g₀ ops h₀ hids g layers round p nowUs lastBps kind hp hkind hfresh hne
    have hactual := target_eq_demanded (c := c) (h₀.running_run hids).coherent layers round nowUs
      lastBps hp hkind hfresh hne
    have hsame : ∀ bps, sourceDemandBps bps = countedRate c bps := by
      intro bps
      unfold sourceDemandBps countedRate
      split <;> split <;> omega
    simp only [hsame] at hactual
    exact hactual

theorem publisher_remb_iff_defaults : configValidate .defaults = true ∧ RembReflects .defaults :=
  ⟨by decide +kernel, (publisher_remb_iff .defaults (by decide +kernel)).2 rfl⟩

/-- The admission rate is configured higher; a subscriber has less than that for the camera, and
the publisher is asked for it all the same. -/
theorem publisher_remb_admission :
    let c := { Config.defaults with bandwidthSourceAdmissionBps := 300000 }
    let round : List Update := [⟨2, 294118, 1⟩]
    let bundle := (cameraRoom.session 1).fanoutBundle
    configValidate c = true ∧
      assignedRate c cameraRoom round 1 .camera cameraRoute = 250000 ∧
      countedRate c 250000 = 0 ∧
      targetFor (rembTargets c bundle
        (contributionsOf (applyUpdates c cameraRoom round untold)) 1 0) .camera = 250000 ∧
      ¬ RembReflects c := by
  have hrate : assignedRate { Config.defaults with bandwidthSourceAdmissionBps := 300000 }
      cameraRoom [⟨2, 294118, 1⟩] 1 .camera cameraRoute = 250000 := by decide +kernel
  refine ⟨by decide +kernel, hrate, rfl, by decide +kernel, fun h => ?_⟩
  have hsame := cameraRoom_target h 294118
  rw [hrate] at hsame
  revert hsame
  decide

/-- A call of `sfu_session_maybe_send_publisher_remb`. -/
structure RembCall where
  accepts : Bool
  bundle : FanoutBundle
  cells : SessionId → ℕ → RembContribution
  nowUs : ℕ
  send : StreamKind → Bool

structure RembMessage where
  bps : ℕ
  timeUs : ℕ

/-- The publisher, and the messages for each kind of stream, the latest in front. -/
def rembStep (c : Config) (w : PublisherRemb × (StreamKind → List RembMessage)) (x : RembCall) :
    PublisherRemb × (StreamKind → List RembMessage) :=
  let r := maybeSendPublisherRemb c x.accepts x.bundle x.cells x.nowUs x.send w.1
  (r.1, fun kind => (r.2.filter (·.1 = kind)).map (fun m => ⟨m.2, x.nowUs⟩) ++ w.2 kind)

/-- A message may follow `old` after two seconds, after half a second if it differs by a tenth, and
after a tenth of a second if it is lower by a fifth. -/
structure RembMessage.Paced (m old : RembMessage) : Prop where
  decrease : old.timeUs + 100000 ≤ m.timeUs
  normal : m.timeUs < old.timeUs + 500000 → m.bps * 5 ≤ old.bps * 4
  refresh : m.timeUs < old.timeUs + 2000000 →
    old.bps ≤ 10 * (m.bps - old.bps) ∨ old.bps ≤ 10 * (old.bps - m.bps)

def PublisherRemb.last (p : PublisherRemb) : StreamKind → RembMessage
  | .camera => ⟨p.lastCameraRembBps, p.lastCameraRembTimeUs⟩
  | .screen => ⟨p.lastScreenRembBps, p.lastScreenRembTimeUs⟩
  | .other => ⟨0, 0⟩

/-- The publisher remembers the last message. -/
structure RembTold (p : PublisherRemb) (kind : StreamKind) (l : List RembMessage) : Prop where
  paced : l.IsChain RembMessage.Paced
  last : ∀ m ∈ l.head?, p.last kind = m ∧ 0 < m.bps ∧ 0 < m.timeUs

lemma RembTold.cons {p p' : PublisherRemb} {l : List RembMessage} {bps : ℕ}
    (h : RembTold p kind l) (hnow : nowUs ≠ 0) (hbps : 0 < bps)
    (hdue : publisherRembDue (p.last kind).timeUs (p.last kind).bps bps nowUs)
    (hlast : p'.last kind = ⟨bps, nowUs⟩) : RembTold p' kind (⟨bps, nowUs⟩ :: l) := by
  refine ⟨isChain_cons.2 ⟨fun old hold => ?_, h.paced⟩, ?_⟩
  · obtain ⟨heq, hb, ht⟩ := h.last old hold
    rw [heq, publisherRembDue, if_neg (by omega), decide_eq_true_eq] at hdue
    constructor <;> grind
  · rintro m ⟨⟩
    exact ⟨hlast, hbps, Nat.pos_of_ne_zero hnow⟩

lemma rembTold_step {w : PublisherRemb × (StreamKind → List RembMessage)} (x : RembCall)
    (h : RembTold w.1 kind (w.2 kind)) :
    RembTold (rembStep c w x).1 kind ((rembStep c w x).2 kind) := by
  unfold rembStep maybeSendPublisherRemb
  split
  · exact h
  rename_i hcall
  have hnow : x.nowUs ≠ 0 := (not_or.1 hcall).1
  extract_lets targets p camera screen p1 p2 r
  -- a message for one kind leaves alone what is remembered for the other
  by_cases hc : camera <;> by_cases hs : screen <;>
    simp only [r, p2, p1, hc, hs, if_true, if_false] <;> cases kind
  all_goals
    first
    | exact ⟨h.paced, h.last⟩
    | exact h.cons hnow hc.1 hc.2.2 rfl
    | exact h.cons hnow hs.1 hs.2.2 rfl

/-- **A publisher is not flooded.** Whatever its subscribers contribute, whichever messages can be
sent, and even if the clock goes back, the messages for a kind of stream keep the intervals of the
source. -/
theorem publisher_remb_paced (c : Config) (p : PublisherRemb) (calls : List RembCall)
    (kind : StreamKind) :
    ((Runs.run (rembStep c) (p, fun _ => []) calls).2 kind).IsChain RembMessage.Paced :=
  (Runs.run_inv (rembStep c) (I := fun w => RembTold w.1 kind (w.2 kind))
    (fun _ x h => rembTold_step x h) ⟨.nil, by simp⟩ calls).paced

end MezonSfu.Bandwidth
