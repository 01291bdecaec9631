import MezonSfu.RoomReservations

/-!
A peer that is admitted keeps the room coherent.

The reservations are described by the active slots they add, the prepared snapshots and bundles
by their views. Publishing puts them in place session by session, and the pairs of the new peer
match because both sides were filled from the same reservation.
-/

namespace MezonSfu.RoomGraph

open RemoteSlots Function List Option

lemma undoing_assigned :
    Undoing (fun _ _ => True) fun t t' : SlotTable => t'.assigned = t.assigned where
  refl _ := rfl
  less _ _ _ := trivial
  keeps _ _ _ _ _ _ _ _ := trivial
  undo n t u p r t' _ hv hr hR := by
    obtain ⟨hlt, hfree, hgen, htable⟩ := reserve_some hv hr
    rw [htable, assigned_assign, ← hgen] at hR
    have hslot : t'.assigned r.1 = some (u, p, r.2) := by rw [hR, update_self]
    have hzero : r.2 ≠ 0 := by
      rw [hgen]
      exact nextNonzero_ne_zero _
    have hnone : t.assigned r.1 = none := by
      apply assigned_of_not_active
      rw [hfree]
      exact SlotState.noConfusion
    rw [assigned_retire hlt hzero hslot, hR, update_idem, ← hnone, update_eq_self]

variable {g h : Graph} {A V : Type} {f f' : ℕ → Option (ℤ × ℕ × ℕ)} {links : List Link} {l : Link}
  {rs : List SlotReservation} {targets : List SessionId} {peer : SessionId}
  {m m' : SlotMap maxRemoteSlots V} {i slot : ℕ} {ok runtime : Bool} {r : FanoutRoute}
  {bundle fanout fanout' : FanoutBundle} {receivers receivers' : ReceiverSnapshot}
  {ps : List Prepared}

/-- Coherence depends on the tables through their active slots only. -/
lemma Coherent.of_alike (hg : Coherent g) (hal : g.Alike (fun t t' => t'.assigned = t.assigned) h) :
    Coherent h := by
  obtain ⟨hroom, -, hsession⟩ := hal
  choose t ht hs using hsession
  have hmem : ∀ p, h.Member p ↔ g.Member p := by
    intro p
    unfold Graph.Member
    rw [hs p, hroom]
  refine ⟨hg.toPaired.of_same hroom ?_ ?_, ?_, ?_⟩
  · intro p
    rw [hs p]
    exact ⟨rfl, rfl, rfl, rfl, rfl, rfl⟩
  · intro p _
    rw [hs p]
    exact ht p
  · intro p hp
    rw [hs p]
    exact (ht p).trans (hg.table p ((hmem p).1 hp))
  · intro p i r hp ha hr
    rw [hs p] at ha hr
    exact hg.audience p i r ((hmem p).1 hp) ha hr

/-! ### The reservations of a successful attempt -/

/-- What the peer's slots of the links add to the active slots `f`. -/
def Assigns (g : Graph) : (ℕ → Option (ℤ × ℕ × ℕ)) → List Link → (ℕ → Option (ℤ × ℕ × ℕ)) → Prop
  | f, [], f' => f' = f
  | f, l :: ls, f' =>
    l.peerSlot.1 < maxRemoteSlots ∧ l.peerSlot.2 ≠ 0 ∧ f l.peerSlot.1 = none ∧
      Assigns g (update f l.peerSlot.1
        (some ((g.session l.target).userId, (g.session l.target).peerId, l.peerSlot.2))) ls f'

/-- What the target's slot of a link does to its active slots. -/
def LinkOk (g : Graph) (peer : SessionId) (l : Link) (t : SlotTable) : Prop :=
  match l.targetSlot with
  | none => (g.session peer).isAudience = true ∧
      t.assigned = (g.session l.target).remoteSlots.assigned
  | some r => (g.session peer).isAudience = false ∧ r.1 < maxRemoteSlots ∧ r.2 ≠ 0 ∧
      (g.session l.target).remoteSlots.assigned r.1 = none ∧
      t.assigned = update (g.session l.target).remoteSlots.assigned r.1
        (some ((g.session peer).userId, (g.session peer).peerId, r.2))

/-- The graphs agree in everything but slot tables. -/
structure OnlySlots (g h : Graph) : Prop where
  room : h.room = g.room
  queue : h.queue = g.queue
  session : ∀ q, h.session q = { g.session q with remoteSlots := (h.session q).remoteSlots }

section

variable {k : Graph} {o p target : SessionId}

lemma OnlySlots.refl (g : Graph) : OnlySlots g g := ⟨rfl, rfl, fun _ => rfl⟩

lemma OnlySlots.symm (hs : OnlySlots g h) : OnlySlots h g := by
  refine ⟨hs.room.symm, hs.queue.symm, ?_⟩
  intro q
  rw [hs.session q]

lemma OnlySlots.trans (h1 : OnlySlots g h) (h2 : OnlySlots h k) : OnlySlots g k := by
  refine ⟨h2.room.trans h1.room, h2.queue.trans h1.queue, ?_⟩
  intro q
  rw [h2.session q, h1.session q]

lemma OnlySlots.field (hs : OnlySlots g h) (field : Session → A)
    (hf : ∀ s t, field { s with remoteSlots := t } = field s := by intros; rfl) {q : SessionId} :
    field (h.session q) = field (g.session q) := by
  rw [hs.session q, hf]

lemma onlySlots_reserveSlot (g : Graph) (o p : SessionId) : OnlySlots g (g.reserveSlot o p).1 := by
  refine ⟨rfl, rfl, ?_⟩
  intro q
  by_cases hq : q = o
  · rw [hq, reserveSlot_self]
  · rw [reserveSlot_of_ne hq]

lemma onlySlots_reserveLink (g : Graph) (peer target : SessionId) :
    OnlySlots g (g.reserveLink peer target).1 := by
  rcases reserveLink_cases g peer target with ⟨-, heq⟩ | ⟨-, -, heq⟩ | ⟨t, -, -, heq⟩
  · rw [heq, reservePeerSlot_eq]
    exact onlySlots_reserveSlot ..
  · rw [heq]
    exact .refl g
  · rw [heq, reservePeerSlot_eq]
    exact (onlySlots_reserveSlot ..).trans (onlySlots_reserveSlot ..)

lemma onlySlots_reserveLinks (targets : List SessionId) :
    OnlySlots g (Graph.reserveLinks peer g targets).1 := by
  induction targets generalizing g with
  | nil => exact .refl g
  | cons target targets ih =>
    have hone := onlySlots_reserveLink g peer target
    unfold Graph.reserveLinks
    generalize g.reserveLink peer target = result at hone ⊢
    obtain ⟨g', rs, _ | link⟩ := result
    · exact hone
    · exact hone.trans ih

lemma onlySlots_retireSlot (g : Graph) (owner : SessionId) (slot generation : ℕ) :
    OnlySlots g (g.retireSlot owner slot generation) := by
  refine ⟨rfl, rfl, ?_⟩
  intro q
  unfold Graph.retireSlot
  by_cases hq : q = owner
  · rw [hq, modify_self]
  · rw [modify_of_ne hq]

lemma onlySlots_undo (rs : List SlotReservation) : OnlySlots g (g.undo rs) := by
  induction rs with
  | nil => exact .refl g
  | cons r rs ih => exact ih.trans (onlySlots_retireSlot ..)

lemma assigns_congr (hs : OnlySlots g h) (ha : Assigns h f links f') : Assigns g f links f' := by
  induction links generalizing f with
  | nil => exact ha
  | cons l ls ih =>
    obtain ⟨hlt, hgen, hnone, hrest⟩ := ha
    refine ⟨hlt, hgen, hnone, ?_⟩
    have := ih hrest
    rwa [hs.field Session.userId, hs.field Session.peerId] at this

lemma reserveLink_spec (hl : Linkable g peer (target :: targets))
    (hr : g.reserveLink peer target = (h, rs, some l)) :
    l.target = target ∧ LinkOk g peer l (h.session target).remoteSlots ∧
      (∀ q ≠ peer, q ≠ target → h.session q = g.session q) ∧
      l.peerSlot.1 < maxRemoteSlots ∧ l.peerSlot.2 ≠ 0 ∧
      (g.session peer).remoteSlots.assigned l.peerSlot.1 = none ∧
      (h.session peer).remoteSlots.assigned =
        update (g.session peer).remoteSlots.assigned l.peerSlot.1
          (some ((g.session target).userId, (g.session target).peerId, l.peerSlot.2)) := by
  have hne : peer ≠ target := fun heq => hl.notMem (heq ▸ .head _)
  have hvt := hl.target target (.head _)
  have hvp := hl.peer target (.head _)
  rcases reserveLink_cases g peer target with ⟨ha, heq⟩ | ⟨-, -, heq⟩ | ⟨t, ha, ht, heq⟩
  · rw [heq, reservePeerSlot_eq, Prod.mk.injEq, Prod.mk.injEq] at hr
    obtain ⟨rfl, -, hlink⟩ := hr
    obtain ⟨p, hp, rfl⟩ := map_eq_some_iff.1 hlink
    obtain ⟨hlt, hgen, hnone, hassigned⟩ := reserveSlot_some hvp hp
    refine ⟨rfl, ⟨ha, ?_⟩, ?_, hlt, hgen, hnone, hassigned⟩
    · rw [reserveSlot_of_ne hne.symm]
    · intro q hq _
      exact reserveSlot_of_ne hq
  · rw [heq] at hr
    simp at hr
  · rw [heq, reservePeerSlot_eq, Prod.mk.injEq, Prod.mk.injEq] at hr
    obtain ⟨rfl, -, hlink⟩ := hr
    obtain ⟨p, hp, rfl⟩ := map_eq_some_iff.1 hlink
    obtain ⟨htlt, htgen, htnone, htassigned⟩ := reserveSlot_some hvt ht
    have hpeer : (g.reserveSlot target peer).1.session peer = g.session peer :=
      reserveSlot_of_ne hne
    obtain ⟨hlt, hgen, hnone, hassigned⟩ := reserveSlot_some (hvp.reserveSlot hvt (.inl hne)) hp
    rw [hpeer] at hnone hassigned
    rw [reserveSlot_field Session.userId, reserveSlot_field Session.peerId] at hassigned
    refine ⟨rfl, ⟨ha, htlt, htgen, htnone, ?_⟩, ?_, hlt, hgen, hnone, hassigned⟩
    · rw [reserveSlot_of_ne hne.symm]
      exact htassigned
    · intro q hq hqt
      rw [reserveSlot_of_ne hq, reserveSlot_of_ne hqt]

end

structure Reserved (g h : Graph) (peer : SessionId) (links : List Link) : Prop where
  only : OnlySlots g h
  other : ∀ q ≠ peer, q ∉ links.map Link.target → h.session q = g.session q
  link : ∀ l ∈ links, LinkOk g peer l (h.session l.target).remoteSlots
  assigns : Assigns g (g.session peer).remoteSlots.assigned links
    (h.session peer).remoteSlots.assigned

lemma reserveLinks_spec (hl : Linkable g peer targets)
    (hr : Graph.reserveLinks peer g targets = (h, rs, some links)) :
    links.map Link.target = targets ∧ Reserved g h peer links := by
  induction targets generalizing g rs links with
  | nil =>
    obtain ⟨rfl, -, rfl⟩ := hr
    exact ⟨rfl, .refl _, fun _ _ _ => rfl, by simp, rfl⟩
  | cons target targets ih =>
    unfold Graph.reserveLinks at hr
    rcases hlink : g.reserveLink peer target with ⟨g1, rs1, _ | l⟩
    · rw [hlink] at hr
      simp at hr
    rw [hlink] at hr
    rcases hrest : Graph.reserveLinks peer g1 targets with ⟨g2, rs2, _ | ls⟩
    · simp [hrest] at hr
    simp only [hrest, map_some, Prod.mk.injEq, Option.some.injEq] at hr
    obtain ⟨rfl, -, rfl⟩ := hr
    have hfst : (g.reserveLink peer target).1 = g1 := by rw [hlink]
    have honly : OnlySlots g g1 := hfst ▸ onlySlots_reserveLink g peer target
    obtain ⟨hmap, hres⟩ := ih (hfst ▸ hl.reserveLink) hrest
    obtain ⟨hto, hok, hframe, hlt, hgen, hnone, hassigned⟩ := reserveLink_spec hl hlink
    have hnd := nodup_cons.1 hl.nodup
    have hpeer : peer ≠ target := fun heq => hl.notMem (heq ▸ .head _)
    subst hto
    refine ⟨by rw [map_cons, hmap], honly.trans hres.only, ?_, ?_, hlt, hgen, hnone, ?_⟩
    · intro q hq hnot
      rw [map_cons, mem_cons, not_or] at hnot
      rw [hres.other q hq hnot.2, hframe q hq hnot.1]
    · intro l' hl'
      rcases mem_cons.1 hl' with rfl | hl'
      · -- later links leave this target alone
        rw [hres.other l'.target hpeer.symm (by rw [hmap]; exact hnd.1)]
        exact hok
      have hok' := hres.link l' hl'
      have htarget : l'.target ∈ targets := hmap ▸ mem_map_of_mem hl'
      have hsame : g1.session l'.target = g.session l'.target :=
        hframe _ (fun heq => hl.notMem (.tail _ (heq ▸ htarget)))
          (fun heq => hnd.1 (heq ▸ htarget))
      unfold LinkOk at hok' ⊢
      rw [hsame] at hok'
      rw [honly.field Session.isAudience,
        honly.field Session.userId,
        honly.field Session.peerId] at hok'
      exact hok'
    · rw [← hassigned]
      exact assigns_congr honly hres.assigns

/-! ### What the snapshot and bundle functions build -/

section

variable {o p : SessionId}

lemma copySet_spec {v : Option V} (h : copySet m i v ok = some m') :
    i < maxRemoteSlots ∧ m'.cells = update m.cells i v := by
  unfold copySet at h
  split at h
  · rename_i hi
    rw [← Option.some.inj h]
    exact ⟨hi.1, rfl⟩
  · cases h

lemma setCell_spec {v : V} (h : setCell m i v ok = some m') :
    i < maxRemoteSlots ∧ m'.cells = update m.cells i (some v) := by
  unfold setCell at h
  split at h
  · rename_i hi
    rw [← Option.some.inj h]
    exact ⟨hi.1, rfl⟩
  · cases h

structure Built (g : Graph) (old : ReceiverSnapshot) (source : SessionId) (slot generation : ℕ)
    (snap : ReceiverSnapshot) : Prop where
  lt : slot < maxRemoteSlots
  absent : snapshotFind old source = none
  empty : old.cells slot = none
  cells : snap.cells = update old.cells slot (some (g.newEntry source slot generation))

lemma snapshotBuildAt_spec {generation : ℕ} {snap : ReceiverSnapshot}
    (h : g.snapshotBuildAt o p slot generation ok = some snap) :
    Built g (g.session o).receivers p slot generation snap := by
  unfold Graph.snapshotBuildAt at h
  dsimp only at h
  split at h
  · cases h
  · rename_i hnone
    rw [not_or] at hnone
    obtain ⟨hlt, hcells⟩ := copySet_spec h
    exact ⟨hlt, by simpa using hnone.1, by simpa using hnone.2, hcells⟩

section

variable {old snap : ReceiverSnapshot} {generation : ℕ} (hb : Built g old p slot generation snap)

include hb

section

variable (hwf : old.WF ReceiverEntry.subscriber)

include hwf

lemma Built.fits : SlotMap.Fits ReceiverEntry.subscriber old slot (g.newEntry p slot generation) :=
  hwf.fits_empty hb.empty hb.absent

lemma Built.wf : snap.WF ReceiverEntry.subscriber := hwf.put hb.lt (hb.fits hwf) hb.cells

lemma Built.view : snapView snap = update (snapView old) p (some (slot, generation)) :=
  hwf.view_put hb.lt (hb.fits hwf) hb.cells

end

lemma Built.tags :
    RoomGraph.tags snap = update (RoomGraph.tags old) slot
      (some ((g.session p).userId, (g.session p).peerId, generation)) := by
  funext j
  unfold RoomGraph.tags
  rw [hb.cells]
  by_cases hj : j = slot
  · rw [hj, update_self, update_self]
    rfl
  · rw [update_of_ne hj, update_of_ne hj]

lemma Built.entry {e : ReceiverEntry} (he : snap.cells i = some e) :
    old.cells i = some e ∨ (i = slot ∧ e = g.newEntry p slot generation) := by
  rw [hb.cells] at he
  obtain ⟨hi, ⟨⟩⟩ | ⟨-, he⟩ := update_cases he
  · exact .inr ⟨hi, rfl⟩
  · exact .inl he

end

lemma fanoutRouteFill_spec {subs : ReceiverSnapshot}
    (h : g.fanoutRouteFill p o subs runtime = some r) :
    r.subscriber = o ∧ snapView subs p = some (r.remoteSlot, r.assignmentGeneration) ∧
      r.eligible = fanoutEligibility (g.session p) runtime := by
  obtain ⟨i, hi, hmap⟩ := bind_eq_some_iff.1 h
  obtain ⟨e, he, rfl⟩ := map_eq_some_iff.1 hmap
  refine ⟨rfl, ?_, rfl⟩
  unfold snapView SlotMap.view
  rw [show subs.find ReceiverEntry.subscriber p = some i from hi, bind_some, he]
  rfl

/-- The bundle of `p` with its route to `o` put, or rewritten. -/
structure Routed (g : Graph) (p o : SessionId) (old : FanoutBundle) (v : ℕ × ℕ)
    (bundle : FanoutBundle) : Prop where
  wf : bundle.WF FanoutRoute.subscriber
  view : bundleView bundle = update (bundleView old) o (some v)
  route : ∀ i r, bundle.cells i = some r → (r.subscriber ≠ o ∧ old.cells i = some r) ∨
    (r.subscriber = o ∧ ∃ runtime, r.eligible = fanoutEligibility (g.session p) runtime)

lemma routed_put {old : FanoutBundle} {k : ℕ} (hwf : old.WF FanoutRoute.subscriber)
    (hk : k < maxRemoteSlots) (hr : r.subscriber = o)
    (hfits : SlotMap.Fits FanoutRoute.subscriber old k r)
    (hcells : bundle.cells = update old.cells k (some r))
    (helig : r.eligible = fanoutEligibility (g.session p) runtime) :
    Routed g p o old (r.remoteSlot, r.assignmentGeneration) bundle := by
  subst hr
  refine ⟨hwf.put hk hfits hcells, hwf.view_put hk hfits hcells, ?_⟩
  intro i r' hr'
  rw [hcells] at hr'
  obtain ⟨-, ⟨⟩⟩ | ⟨hi, hr'⟩ := update_cases hr'
  · exact .inr ⟨rfl, runtime, helig⟩
  · exact .inl ⟨fun heq => hi (hfits.2 i r' hr' heq), hr'⟩

lemma fanoutChangeFrom_spec {prepared : Option ReceiverSnapshot}
    (hwf : (g.session p).fanoutBundle.WF FanoutRoute.subscriber)
    (h : g.fanoutChangeFrom p o prepared runtime ok = some bundle) :
    ∃ v, snapView (prepared.getD (g.session o).receivers) p = some v ∧
      Routed g p o (g.session p).fanoutBundle v bundle := by
  obtain ⟨k, hk, h⟩ := bind_eq_some_iff.1 h
  obtain ⟨r, hr, h⟩ := bind_eq_some_iff.1 h
  obtain ⟨hlt, hcells⟩ := copySet_spec h
  obtain ⟨hsub, hview, helig⟩ := fanoutRouteFill_spec hr
  have hfits : SlotMap.Fits FanoutRoute.subscriber (g.session p).fanoutBundle k r := by
    cases hf : bundleFind (g.session p).fanoutBundle o with
    | some k' =>
      rw [hf, some_or] at hk
      obtain rfl := Option.some.inj hk
      exact hwf.fits_found hf hsub
    | none =>
      rw [hf, none_or] at hk
      apply hwf.fits_empty (SlotMap.firstEmpty_spec hk).2
      rw [hsub]
      exact hf
  exact ⟨_, hview, routed_put hwf hlt hsub hfits hcells helig⟩

end

structure PreparedFor (g : Graph) (peer : SessionId) (l : Link) (p : Prepared) : Prop where
  target : p.target = l.target
  listener : l.targetSlot = none → p.receivers = none
  speaker : ∀ r, l.targetSlot = some r →
    ∃ snap, p.receivers = some snap ∧ Built g (g.session l.target).receivers peer r.1 r.2 snap
  fanout : Routed g l.target peer (g.session l.target).fanoutBundle l.peerSlot p.fanoutBundle

/-- The peer's snapshot and bundle before target number `i`, with the links still to come. -/
structure Filling (f : ℕ → Option (ℤ × ℕ × ℕ)) (links : List Link) (i : ℕ)
    (receivers : ReceiverSnapshot) (fanout : FanoutBundle) : Prop where
  receiversWF : receivers.WF ReceiverEntry.subscriber
  tags_eq : tags receivers = f
  newEntry : ∀ l ∈ links, snapshotFind receivers l.target = none
  fanoutWF : fanout.WF FanoutRoute.subscriber
  empty : ∀ j, i ≤ j → fanout.cells j = none
  newRoute : ∀ l ∈ links, bundleFind fanout l.target = none

/-- The peer's snapshot and bundle after the links, compared with those before. -/
structure Filled (g : Graph) (peer : SessionId) (links : List Link)
    (receivers receivers' : ReceiverSnapshot) (fanout fanout' : FanoutBundle) : Prop where
  receiversWF : receivers'.WF ReceiverEntry.subscriber
  fanoutWF : fanout'.WF FanoutRoute.subscriber
  entryView : ∀ l ∈ links, snapView receivers' l.target = some l.peerSlot
  entryOther : ∀ q ∉ links.map Link.target, snapView receivers' q = snapView receivers q
  routeView : ∀ l ∈ links, bundleView fanout' l.target = l.targetSlot
  routeOther : ∀ q ∉ links.map Link.target, bundleView fanout' q = bundleView fanout q
  entry : ∀ j e, receivers'.cells j = some e → receivers.cells j = some e ∨
    ∃ l ∈ links, j = l.peerSlot.1 ∧ e = g.newEntry l.target l.peerSlot.1 l.peerSlot.2
  route : ∀ j r, fanout'.cells j = some r → fanout.cells j = some r ∨
    ((∃ l ∈ links, r.subscriber = l.target) ∧
      ∃ runtime, r.eligible = fanoutEligibility (g.session peer) runtime)

lemma prepareLink_spec {o : AddOutcome} {ls : List Link} {p : Prepared}
    (hfree : f l.peerSlot.1 = none)
    (htarget : (g.session l.target).receivers.WF ReceiverEntry.subscriber ∧
      (g.session l.target).fanoutBundle.WF FanoutRoute.subscriber)
    (hfill : Filling f (l :: ls) i receivers fanout)
    (h : g.prepareLink peer o l i receivers fanout = some (receivers', fanout', p)) :
    PreparedFor g peer l p ∧
      Built g receivers l.target l.peerSlot.1 l.peerSlot.2 receivers' ∧
      (∀ q, bundleView fanout' q = if q = l.target then l.targetSlot else bundleView fanout q) ∧
      fanout'.WF FanoutRoute.subscriber ∧ (∀ j, i + 1 ≤ j → fanout'.cells j = none) ∧
      ∀ j r, fanout'.cells j = some r → fanout.cells j = some r ∨
        (r.subscriber = l.target ∧
          ∃ runtime, r.eligible = fanoutEligibility (g.session peer) runtime) := by
  simp only [Graph.prepareLink, Option.bind_eq_bind, Option.bind_eq_some_iff, Option.pure_def,
    Option.some.injEq, Prod.mk.injEq] at h
  obtain ⟨subs, hsubs, recv, hrecv, bundle, hbundle, fan, hfan, rfl, rfl, rfl⟩ := h
  obtain ⟨hlt, hcells⟩ := setCell_spec hrecv
  have hempty : receivers.cells l.peerSlot.1 = none := by
    have := congrFun hfill.tags_eq l.peerSlot.1
    rw [hfree] at this
    simpa [tags] using this
  have hbuilt : Built g receivers l.target l.peerSlot.1 l.peerSlot.2 recv :=
    ⟨hlt, hfill.newEntry l (.head _), hempty, hcells⟩
  have hnone : bundleView fanout l.target = none :=
    SlotMap.view_eq_none.2 (hfill.newRoute l (.head _))
  -- the target's route to the peer is filled from the entry just put
  obtain ⟨v, hv, hrouted⟩ := fanoutChangeFrom_spec htarget.2 hbundle
  rw [getD_some, hbuilt.view hfill.receiversWF, update_self, Option.some.injEq] at hv
  rw [← hv] at hrouted
  cases hslot : l.targetSlot with
  | none =>
    unfold Graph.targetReceivers at hsubs
    rw [hslot] at hsubs
    obtain rfl := Option.some.inj hsubs
    obtain rfl := Option.some.inj hfan
    refine ⟨⟨rfl, fun _ => rfl, ?_, hrouted⟩, hbuilt, ?_, hfill.fanoutWF, ?_, ?_⟩
    · intro r hr
      rw [hslot] at hr
      cases hr
    · intro q
      split
      · rename_i hq
        rw [hq, hnone]
      · rfl
    · exact fun j hj => hfill.empty j (by omega)
    · exact fun j r hr => .inl hr
  | some t =>
    unfold Graph.targetReceivers at hsubs
    rw [hslot] at hsubs
    obtain ⟨snap, hsnap, rfl⟩ := map_eq_some_iff.1 hsubs
    have hsb := snapshotBuildAt_spec hsnap
    obtain ⟨route, hroute, hset⟩ := bind_eq_some_iff.1 hfan
    obtain ⟨hilt, hfcells⟩ := setCell_spec hset
    obtain ⟨hsub, hview, helig⟩ := fanoutRouteFill_spec hroute
    rw [hsb.view htarget.1, update_self, Option.some.injEq] at hview
    have hfits : SlotMap.Fits FanoutRoute.subscriber fanout i route := by
      apply hfill.fanoutWF.fits_empty (hfill.empty i le_rfl)
      rw [hsub]
      exact hfill.newRoute l (.head _)
    have hput := routed_put hfill.fanoutWF hilt hsub hfits hfcells helig
    refine ⟨⟨rfl, ?_, ?_, hrouted⟩, hbuilt, ?_, hput.wf, ?_, ?_⟩
    · intro hn
      rw [hslot] at hn
      cases hn
    · intro r hr
      rw [hslot] at hr
      obtain rfl := Option.some.inj hr
      exact ⟨snap, rfl, hsb⟩
    · intro q
      rw [hput.view]
      split
      · rename_i hq
        rw [hq, update_self, ← hview]
      · rename_i hq
        rw [update_of_ne hq]
    · intro j hj
      rw [hfcells, update_of_ne (by omega)]
      exact hfill.empty j (by omega)
    · intro j r hr
      rcases hput.route j r hr with ⟨-, hold⟩ | hnew
      · exact .inl hold
      · exact .inr hnew

lemma prepareLinks_spec {o : AddOutcome} (hnd : (links.map Link.target).Nodup)
    (htarget : ∀ l ∈ links, (g.session l.target).receivers.WF ReceiverEntry.subscriber ∧
      (g.session l.target).fanoutBundle.WF FanoutRoute.subscriber)
    (hfill : Filling f links i receivers fanout) (hassign : Assigns g f links f')
    (h : g.prepareLinks peer o links i receivers fanout = some (receivers', fanout', ps)) :
    Filled g peer links receivers receivers' fanout fanout' ∧ tags receivers' = f' ∧
      List.Forall₂ (PreparedFor g peer) links ps := by
  induction links generalizing i receivers fanout ps f with
  | nil =>
    obtain ⟨rfl, rfl, rfl⟩ := h
    refine ⟨⟨hfill.receiversWF, hfill.fanoutWF, ?_, fun _ _ => rfl, ?_, fun _ _ => rfl,
      fun _ _ he => .inl he, fun _ _ hr => .inl hr⟩, hfill.tags_eq.trans hassign.symm, .nil⟩
    · exact fun l hl => absurd hl not_mem_nil
    · exact fun l hl => absurd hl not_mem_nil
  | cons l ls ih =>
    simp only [Graph.prepareLinks, Option.bind_eq_bind, Option.bind_eq_some_iff, Option.pure_def,
      Option.some.injEq, Prod.mk.injEq, Prod.exists] at h
    obtain ⟨recv, fan, p, hlink, recv', fan', rest, hrest, rfl, rfl, rfl⟩ := h
    obtain ⟨hlt, hgen, hfree, hassign⟩ := hassign
    rw [map_cons, nodup_cons] at hnd
    obtain ⟨hprepared, hbuilt, hview, hwf, hempty, hroute⟩ :=
      prepareLink_spec hfree (htarget l (.head _)) hfill hlink
    have hne : ∀ l' ∈ ls, l'.target ≠ l.target := by
      intro l' hl' heq
      exact hnd.1 (heq ▸ mem_map_of_mem hl')
    have hentry := hbuilt.view hfill.receiversWF
    -- the state before the remaining links
    have hfill' : Filling (tags recv) ls (i + 1) recv fan := by
      refine ⟨hbuilt.wf hfill.receiversWF, rfl, ?_, hwf, hempty, ?_⟩
      · intro l' hl'
        apply SlotMap.view_eq_none.1
        change snapView recv l'.target = none
        rw [hentry, update_of_ne (hne l' hl')]
        exact SlotMap.view_eq_none.2 (hfill.newEntry l' (.tail _ hl'))
      · intro l' hl'
        apply SlotMap.view_eq_none.1
        change bundleView fan l'.target = none
        rw [hview, if_neg (hne l' hl')]
        exact SlotMap.view_eq_none.2 (hfill.newRoute l' (.tail _ hl'))
    have htags : tags recv = update f l.peerSlot.1
        (some ((g.session l.target).userId, (g.session l.target).peerId, l.peerSlot.2)) := by
      rw [hbuilt.tags, hfill.tags_eq]
    rw [← htags] at hassign
    obtain ⟨hfilled, hfinal, hps⟩ :=
      ih hnd.2 (fun l' hl' => htarget l' (.tail _ hl')) hfill' hassign hrest
    refine ⟨⟨hfilled.receiversWF, hfilled.fanoutWF, ?_, ?_, ?_, ?_, ?_, ?_⟩, hfinal,
      .cons hprepared hps⟩
    · refine forall_mem_cons.2 ⟨?_, hfilled.entryView⟩
      rw [hfilled.entryOther _ hnd.1, hentry, update_self]
    · intro q hq
      rw [map_cons, mem_cons, not_or] at hq
      rw [hfilled.entryOther q hq.2, hentry, update_of_ne hq.1]
    · refine forall_mem_cons.2 ⟨?_, hfilled.routeView⟩
      rw [hfilled.routeOther _ hnd.1, hview, if_pos rfl]
    · intro q hq
      rw [map_cons, mem_cons, not_or] at hq
      rw [hfilled.routeOther q hq.2, hview, if_neg hq.1]
    · intro j e he
      rcases hfilled.entry j e he with hold | ⟨l', hl', hj, heq⟩
      · rcases hbuilt.entry hold with hold | ⟨hj, heq⟩
        · exact .inl hold
        · exact .inr ⟨l, .head _, hj, heq⟩
      · exact .inr ⟨l', .tail _ hl', hj, heq⟩
    · intro j r hr
      rcases hfilled.route j r hr with hold | ⟨⟨l', hl', hsub⟩, helig⟩
      · rcases hroute j r hold with hold | ⟨hsub, helig⟩
        · exact .inl hold
        · exact .inr ⟨⟨l, .head _, hsub⟩, helig⟩
      · exact .inr ⟨⟨l', .tail _ hl', hsub⟩, helig⟩

section

lemma publish_self (g : Graph) (p : Prepared) :
    (g.publish p).session p.target =
      { g.session p.target with
        receivers := p.receivers.getD (g.session p.target).receivers
        fanoutBundle := p.fanoutBundle } := by
  unfold Graph.publish Graph.fanoutReplace Graph.snapshotReplace
  rw [modify_self, modify_self]
  rfl

lemma publish_of_ne {p : Prepared} {q : SessionId} (h : q ≠ p.target) :
    (g.publish p).session q = g.session q := by
  unfold Graph.publish Graph.fanoutReplace Graph.snapshotReplace
  rw [modify_of_ne h, modify_of_ne h]

lemma publish_all (hnd : (ps.map Prepared.target).Nodup) :
    let r := ps.foldl Graph.publish g
    r.room = g.room ∧ (∀ q ∉ ps.map Prepared.target, r.session q = g.session q) ∧
      ∀ p ∈ ps, r.session p.target = { g.session p.target with
          receivers := p.receivers.getD (g.session p.target).receivers
          fanoutBundle := p.fanoutBundle } := by
  induction ps generalizing g with
  | nil => exact ⟨rfl, fun _ _ => rfl, fun p hp => absurd hp not_mem_nil⟩
  | cons p ps ih =>
    rw [map_cons, nodup_cons] at hnd
    obtain ⟨hroom, hother, hself⟩ := ih (g := g.publish p) hnd.2
    refine ⟨hroom, ?_, ?_⟩
    · intro q hq
      rw [map_cons, mem_cons, not_or] at hq
      rw [foldl_cons, hother q hq.2, publish_of_ne hq.1]
    intro p' hp'
    rw [foldl_cons]
    rcases mem_cons.1 hp' with rfl | hp'
    · rw [hother _ hnd.1, publish_self]
    · have hne : p'.target ≠ p.target := fun heq => hnd.1 (heq ▸ mem_map_of_mem hp')
      rw [hself p' hp', publish_of_ne hne]

end

/-! ### The committed graph -/

lemma fanoutEligibility_audience {s : Session} (h : s.isAudience) (runtime : Bool) :
    (fanoutEligibility s runtime).video = false ∧ (fanoutEligibility s runtime).screen = false := by
  simp [fanoutEligibility, h]

lemma assigns_mem (h : Assigns g f links f') : ∀ l ∈ links, l.peerSlot.2 ≠ 0 := by
  induction links generalizing f with
  | nil => exact fun l hl => absurd hl not_mem_nil
  | cons l ls ih =>
    obtain ⟨-, hgen, -, hrest⟩ := h
    exact forall_mem_cons.2 ⟨hgen, ih hrest⟩

/-- A target of a link, after the commit: its entry for the peer and its route to it. -/
structure TargetJoined (g g' : Graph) (peer : SessionId) (l : Link) : Prop where
  receivers : (g'.session l.target).receivers.WF ReceiverEntry.subscriber
  bundle : (g'.session l.target).fanoutBundle.WF FanoutRoute.subscriber
  entryView : ∀ q, (g'.session l.target).entryView q =
    if q = peer then l.targetSlot else (g.session l.target).entryView q
  routeView : ∀ q, (g'.session l.target).routeView q =
    if q = peer then some l.peerSlot else (g.session l.target).routeView q
  entry : ∀ i e, (g'.session l.target).receivers.cells i = some e →
    (g.session l.target).receivers.cells i = some e ∨
      (e.subscriber = peer ∧ e.remoteSlot = i ∧ e.assignmentGeneration ≠ 0 ∧
        e.publisherUserId = (g.session peer).userId ∧ e.publisherPeerId = (g.session peer).peerId)
  route : ∀ i r, (g'.session l.target).fanoutBundle.cells i = some r →
    (g.session l.target).fanoutBundle.cells i = some r ∨
      (r.subscriber = peer ∧ ((g.session l.target).isAudience = true →
        r.eligible.video = false ∧ r.eligible.screen = false))
  table : (g'.session l.target).remoteSlots.assigned = tags (g'.session l.target).receivers

structure PeerJoined (g g' : Graph) (peer : SessionId) (slot : ℕ) (links : List Link) : Prop where
  room : (g'.session peer).room = some g.room.roomId
  roomSlot : (g'.session peer).roomSlot = slot
  receivers : (g'.session peer).receivers.WF ReceiverEntry.subscriber
  bundle : (g'.session peer).fanoutBundle.WF FanoutRoute.subscriber
  entryView : ∀ l ∈ links, (g'.session peer).entryView l.target = some l.peerSlot
  entryOther : ∀ q ∉ links.map Link.target, (g'.session peer).entryView q = none
  routeView : ∀ l ∈ links, (g'.session peer).routeView l.target = l.targetSlot
  routeOther : ∀ q ∉ links.map Link.target, (g'.session peer).routeView q = none
  entry : ∀ i e, (g'.session peer).receivers.cells i = some e →
    e.subscriber ∈ links.map Link.target ∧ e.remoteSlot = i ∧ e.assignmentGeneration ≠ 0 ∧
      e.publisherUserId = (g.session e.subscriber).userId ∧
      e.publisherPeerId = (g.session e.subscriber).peerId
  route : ∀ i r, (g'.session peer).fanoutBundle.cells i = some r →
    r.subscriber ∈ links.map Link.target ∧ ((g.session peer).isAudience = true →
      r.eligible.video = false ∧ r.eligible.screen = false)
  table : (g'.session peer).remoteSlots.assigned = tags (g'.session peer).receivers

/-- What the admission of `peer` has done, session by session. -/
structure Joined (g g' : Graph) (peer : SessionId) (slot : ℕ) (links : List Link) : Prop where
  room : g'.room = g.room.seat peer slot
  ids : ∀ q, (g'.session q).userId = (g.session q).userId ∧
    (g'.session q).peerId = (g.session q).peerId ∧
    (g'.session q).isAudience = (g.session q).isAudience ∧
    (g'.session q).acceptsWork = (g.session q).acceptsWork
  seats : ∀ q ≠ peer, (g'.session q).room = (g.session q).room ∧
    (g'.session q).roomSlot = (g.session q).roomSlot
  other : ∀ q ≠ peer, q ∉ links.map Link.target → g'.session q = g.session q
  target : ∀ l ∈ links, TargetJoined g g' peer l
  peer : PeerJoined g g' peer slot links

lemma OnlySlots.eligible_audience (honly : OnlySlots g h) {q : SessionId}
    (ha : (g.session q).isAudience) (hr : r.eligible = fanoutEligibility (h.session q) runtime) :
    r.eligible.video = false ∧ r.eligible.screen = false := by
  rw [hr]
  apply fanoutEligibility_audience
  rw [honly.field Session.isAudience]
  exact ha

lemma targetJoined {g' : Graph} {p : Prepared} (hg : Coherent g) (hmem : g.Member l.target)
    (hnew : ¬ g.Member peer) (honly : OnlySlots g h)
    (hlink : LinkOk g peer l (h.session l.target).remoteSlots) (hp : PreparedFor h peer l p)
    (hs : g'.session l.target = { h.session l.target with
      receivers := p.receivers.getD (h.session l.target).receivers
      fanoutBundle := p.fanoutBundle }) : TargetJoined g g' peer l := by
  have hl := hg.linked l.target hmem
  have hrecv : (h.session l.target).receivers = (g.session l.target).receivers :=
    honly.field Session.receivers
  have hfan : (g'.session l.target).fanoutBundle = p.fanoutBundle :=
    congrArg Session.fanoutBundle hs
  have hrouted := hp.fanout
  rw [honly.field Session.fanoutBundle, ← hfan] at hrouted
  have hroute := fun q => (congrFun hrouted.view q).trans (update_apply ..)
  have helig := fun i r hr => (hrouted.route i r hr).imp And.right fun hr =>
    hr.imp_right fun ⟨_, helig⟩ (ha : (g.session l.target).isAudience) =>
      honly.eligible_audience ha helig
  unfold LinkOk at hlink
  cases hslot : l.targetSlot with
  | none =>
    rw [hslot] at hlink
    have hsame : (g'.session l.target).receivers = (g.session l.target).receivers := by
      rw [hs, hp.listener hslot]
      exact hrecv
    refine ⟨hsame ▸ hl.receivers, hrouted.wf, ?_, hroute, ?_, helig, ?_⟩
    · intro q
      unfold Session.entryView
      rw [hsame]
      split
      · rename_i hq
        rw [hq, hslot]
        exact hl.entryView_eq_none hnew
      · rfl
    · intro i e he
      rw [hsame] at he
      exact .inl he
    · rw [hsame, hs]
      exact hlink.2.trans (hg.table _ hmem)
  | some r =>
    rw [hslot] at hlink
    obtain ⟨-, -, hgen, -, hassigned⟩ := hlink
    obtain ⟨snap, hsnap, hbuilt⟩ := hp.speaker r hslot
    rw [hrecv] at hbuilt
    have hnow : (g'.session l.target).receivers = snap := by
      rw [hs, hsnap]
      rfl
    have huser : (h.session peer).userId = (g.session peer).userId := honly.field Session.userId
    have hpid : (h.session peer).peerId = (g.session peer).peerId := honly.field Session.peerId
    refine ⟨hnow ▸ hbuilt.wf hl.receivers, hrouted.wf, ?_, hroute, ?_, helig, ?_⟩
    · intro q
      unfold Session.entryView
      rw [hnow, hbuilt.view hl.receivers, hslot]
      exact update_apply ..
    · intro i e he
      rw [hnow] at he
      rcases hbuilt.entry he with hold | ⟨hi, rfl⟩
      · exact .inl hold
      · exact .inr ⟨rfl, hi.symm, hgen, huser, hpid⟩
    · rw [hnow, hbuilt.tags, huser, hpid, ← hg.table _ hmem, hs]
      exact hassigned

lemma peerJoined {g' : Graph} (hres : Reserved g h peer links)
    (hfilled : Filled h peer links .empty (g'.session peer).receivers .empty
      (g'.session peer).fanoutBundle)
    (hroom : (g'.session peer).room = some g.room.roomId)
    (htable : (g'.session peer).remoteSlots.assigned = tags (g'.session peer).receivers) :
    PeerJoined g g' peer (g'.session peer).roomSlot links where
  room := hroom
  roomSlot := rfl
  receivers := hfilled.receiversWF
  bundle := hfilled.fanoutWF
  entryView := hfilled.entryView
  entryOther q hq := (hfilled.entryOther q hq).trans SlotMap.view_empty
  routeView := hfilled.routeView
  routeOther q hq := (hfilled.routeOther q hq).trans SlotMap.view_empty
  entry i e he := by
    rcases hfilled.entry i e he with hold | ⟨l, hl, hi, rfl⟩
    · cases hold
    · exact ⟨mem_map_of_mem hl, hi.symm, assigns_mem hres.assigns l hl,
        hres.only.field Session.userId, hres.only.field Session.peerId⟩
  route i r hr := by
    rcases hfilled.route i r hr with hold | ⟨⟨l, hl, hsub⟩, runtime, helig⟩
    · cases hold
    · exact ⟨hsub ▸ mem_map_of_mem hl, fun ha => hres.only.eligible_audience ha helig⟩
  table := htable

/-- **The commit**, session by session. -/
lemma joined_commit {q : MembershipQueue} (hg : Coherent g) (hnew : ¬ g.Member peer)
    (hmem : ∀ t ∈ links.map Link.target, g.Member t) (hnd : (links.map Link.target).Nodup)
    (hres : Reserved g h peer links) (hfilled : Filled h peer links .empty receivers .empty fanout)
    (htags : (h.session peer).remoteSlots.assigned = tags receivers)
    (hps : List.Forall₂ (PreparedFor h peer) links ps) :
    Joined g (h.commitPeer peer slot receivers fanout ps q) peer slot links := by
  have honly := hres.only
  have htargets : ps.map Prepared.target = links.map Link.target := by
    clear hfilled htags hres hmem hnd
    induction hps with
    | nil => rfl
    | cons hp _ ih => rw [map_cons, map_cons, hp.target, ih]
  have hpeer : peer ∉ ps.map Prepared.target := fun hin => hnew (hmem peer (htargets ▸ hin))
  have hpsnd : (ps.map Prepared.target).Nodup := htargets ▸ hnd
  obtain ⟨hroom, hother, hself⟩ := publish_all (g := h) hpsnd
  set g' := h.commitPeer peer slot receivers fanout ps q with hg'
  unfold Graph.commitPeer at hg'
  have hnow : g'.session peer = { h.session peer with
      receivers := receivers, fanoutBundle := fanout
      room := some h.room.roomId, roomSlot := slot } := by
    rw [hg', modify_self, hother peer hpeer]
  have hrest : ∀ r ≠ peer, g'.session r = (ps.foldl Graph.publish h).session r := by
    intro r hr
    rw [hg', modify_of_ne hr]
  have hpublished : ∀ p ∈ ps, g'.session p.target = { h.session p.target with
      receivers := p.receivers.getD (h.session p.target).receivers
      fanoutBundle := p.fanoutBundle } := by
    intro p hp
    rw [hrest _ fun heq => hpeer (heq ▸ mem_map_of_mem hp), hself p hp]
  -- publishing leaves identities and seats
  have hkept : ∀ r ≠ peer, ∃ recv fan slots, g'.session r = { g.session r with
      receivers := recv, fanoutBundle := fan, remoteSlots := slots } := by
    intro r hr
    by_cases hin : r ∈ ps.map Prepared.target
    · obtain ⟨p, hp, rfl⟩ := mem_map.1 hin
      rw [hpublished p hp, honly.session p.target]
      exact ⟨_, _, _, rfl⟩
    · rw [hrest r hr, hother r hin, honly.session r]
      exact ⟨_, _, _, rfl⟩
  refine ⟨?_, ?_, ?_, ?_, ?_, ?_⟩
  · rw [hg']
    dsimp only
    rw [modify_room, hroom, honly.room]
  · intro r
    by_cases hr : r = peer
    · rw [hr, hnow, honly.session peer]
      exact ⟨rfl, rfl, rfl, rfl⟩
    · obtain ⟨recv, fan, slots, heq⟩ := hkept r hr
      rw [heq]
      exact ⟨rfl, rfl, rfl, rfl⟩
  · intro r hr
    obtain ⟨recv, fan, slots, heq⟩ := hkept r hr
    rw [heq]
    exact ⟨rfl, rfl⟩
  · intro r hr hnot
    rw [hrest r hr, hother r (htargets ▸ hnot), hres.other r hr hnot]
  · intro l hl
    obtain ⟨i, hi, rfl⟩ := mem_iff_getElem.1 hl
    have hlt : i < ps.length := hps.length_eq ▸ hi
    have hpl := hps.get hi hlt
    have hs := hpublished _ (get_mem ps ⟨i, hlt⟩)
    rw [hpl.target] at hs
    exact targetJoined hg (hmem _ (mem_map_of_mem hl)) hnew honly (hres.link _ hl) hpl hs
  · have hseat : (g'.session peer).roomSlot = slot := congrArg Session.roomSlot hnow
    rw [← hseat]
    refine peerJoined hres ?_ ?_ ?_ <;> rw [hnow]
    · exact hfilled
    · rw [honly.room]
    · exact htags

section

variable {g' : Graph}

variable (hj : Joined g g' peer slot links)

include hj

lemma Joined.tookSeat : TookSeat g g' peer slot :=
  ⟨hj.room, hj.peer.room, hj.peer.roomSlot, hj.seats⟩

lemma Joined.member_iff (q : SessionId) : g'.Member q ↔ q = peer ∨ g.Member q :=
  hj.tookSeat.member_iff q

section

variable (hnew : ¬ g.Member peer) (hmem : ∀ t ∈ links.map Link.target, g.Member t)

include hnew

omit hj in
lemma ne_of_new {q : SessionId} (hq : g.Member q) : q ≠ peer := fun heq => hnew (heq ▸ hq)

lemma Joined.old_cases {q : SessionId} (hq : g.Member q) :
    (∃ l ∈ links, l.target = q) ∨ (q ∉ links.map Link.target ∧ g'.session q = g.session q) := by
  by_cases hin : q ∈ links.map Link.target
  · exact .inl (mem_map.1 hin)
  · exact .inr ⟨hin, hj.other q (ne_of_new hnew hq) hin⟩

lemma Joined.peer_views (hg : Coherent g) {q : SessionId} (hq : g.Member q) :
    let r := g'.session q
    (∃ l ∈ links, l.target = q ∧ r.entryView peer = l.targetSlot ∧
        r.routeView peer = some l.peerSlot) ∨
      (q ∉ links.map Link.target ∧ r.entryView peer = none ∧
        r.routeView peer = none) := by
  rcases hj.old_cases hnew hq with ⟨l, hl, rfl⟩ | ⟨hin, hsame⟩
  · have ht := hj.target l hl
    refine .inl ⟨l, hl, rfl, ?_, ?_⟩
    · rw [ht.entryView, if_pos rfl]
    · rw [ht.routeView, if_pos rfl]
  · have hl := hg.linked q hq
    rw [hsame]
    exact .inr ⟨hin, hl.entryView_eq_none hnew, hl.routeView_eq_none hnew⟩

lemma Joined.old_views {q r : SessionId} (hq : g.Member q) (hr : g.Member r) :
    (g'.session q).entryView r = (g.session q).entryView r ∧
      (g'.session q).routeView r = (g.session q).routeView r := by
  rcases hj.old_cases hnew hq with ⟨l, hl, rfl⟩ | ⟨-, hsame⟩
  · have ht := hj.target l hl
    have hne := ne_of_new hnew hr
    rw [ht.entryView, ht.routeView, if_neg hne, if_neg hne]
    exact ⟨rfl, rfl⟩
  · rw [hsame]
    exact ⟨rfl, rfl⟩

lemma Joined.linked_old {q : SessionId} (hq : g.Member q) (hl : Linked g q) : Linked g' q := by
  have hmember := hj.member_iff
  have hold : ∀ {q}, g.Member q → g'.Member q := fun hq => (hmember _).2 (.inr hq)
  have hne := ne_of_new hnew hq
  -- an entry of the old graph is one of the new graph
  have hentry : ∀ {p i e}, EntryOk g p i e → EntryOk g' p i e := fun he =>
    he.of_same (hold he.member) (hj.ids _).1 (hj.ids _).2.1
  rcases hj.old_cases hnew hq with ⟨l, hlm, rfl⟩ | ⟨-, hsame⟩
  · have ht := hj.target l hlm
    refine ⟨ht.receivers, ht.bundle, ?_, ?_⟩
    · intro i e he
      rcases ht.entry i e he with hback | ⟨hsub, hslot, hgen, huser, hpid⟩
      · exact hentry (hl.entry i e hback)
      refine ⟨hslot, hgen, (hmember _).2 (.inl hsub), ?_, ?_, ?_⟩
      · rw [hsub]
        exact hne.symm
      · rw [hsub, huser, (hj.ids _).1]
      · rw [hsub, hpid, (hj.ids _).2.1]
    · intro i r hr
      rcases ht.route i r hr with hback | ⟨hsub, -⟩
      · exact ⟨hold (hl.route i r hback).1, (hl.route i r hback).2⟩
      · exact ⟨(hmember _).2 (.inl hsub), by rw [hsub]; exact hne.symm⟩
  · refine ⟨hsame ▸ hl.receivers, hsame ▸ hl.bundle, ?_, ?_⟩
    · intro i e he
      rw [hsame] at he
      exact hentry (hl.entry i e he)
    · intro i r hr
      rw [hsame] at hr
      exact ⟨hold (hl.route i r hr).1, (hl.route i r hr).2⟩

include hmem

lemma Joined.linked_peer : Linked g' peer := by
  have hold : ∀ {q}, g.Member q → g'.Member q := fun hq => (hj.member_iff _).2 (.inr hq)
  refine ⟨hj.peer.receivers, hj.peer.bundle, ?_, ?_⟩
  · intro i e he
    obtain ⟨hin, hslot, hgen, huser, hpid⟩ := hj.peer.entry i e he
    exact ⟨hslot, hgen, hold (hmem _ hin), ne_of_new hnew (hmem _ hin),
      by rw [huser, (hj.ids _).1], by rw [hpid, (hj.ids _).2.1]⟩
  · intro i r hr
    obtain ⟨hin, -⟩ := hj.peer.route i r hr
    exact ⟨hold (hmem _ hin), ne_of_new hnew (hmem _ hin)⟩

lemma Joined.dual (hg : Coherent g) {p s : SessionId} (hp : g'.Member p) (hs : g'.Member s) :
    (g'.session p).routeView s = (g'.session s).entryView p := by
  have hself : peer ∉ links.map Link.target := fun hin => hnew (hmem peer hin)
  rcases (hj.member_iff p).1 hp with rfl | hp <;> rcases (hj.member_iff s).1 hs with rfl | hs
  · rw [hj.peer.routeOther _ hself, hj.peer.entryOther _ hself]
  · rcases hj.peer_views hnew hg hs with ⟨l, hl, rfl, hentryView, -⟩ | ⟨hnot, hentryView, -⟩
    · rw [hj.peer.routeView l hl, hentryView]
    · rw [hj.peer.routeOther s hnot, hentryView]
  · rcases hj.peer_views hnew hg hp with ⟨l, hl, rfl, -, hrouteView⟩ | ⟨hnot, -, hrouteView⟩
    · rw [hj.peer.entryView l hl, hrouteView]
    · rw [hj.peer.entryOther p hnot, hrouteView]
  · rw [(hj.old_views hnew hp hs).2, (hj.old_views hnew hs hp).1]
    exact hg.dual p s hp hs

lemma Joined.coherent (hg : Coherent g)
    (hids : ∀ q, g.Member q → q ≠ peer → (g.session q).peerId ≠ (g.session peer).peerId)
    {rest : List ℕ} (hfree : g.room.freeSlots = slot :: rest) : Coherent g' := by
  have hmember := hj.member_iff
  have hne : ∀ {q}, g.Member q → q ≠ peer := ne_of_new hnew
  refine ⟨⟨hj.tookSeat.seated hg.seated hnew hfree, ?_, ?_,
    fun p s hp hs => hj.dual hnew hmem hg hp hs, ?_⟩, ?_, ?_⟩
  · intro p q hp hq heq
    rw [(hj.ids p).2.1, (hj.ids q).2.1] at heq
    rcases (hmember p).1 hp with rfl | hp <;> rcases (hmember q).1 hq with rfl | hq
    · rfl
    · exact absurd heq.symm (hids q hq (hne hq))
    · exact absurd heq (hids p hp (hne hp))
    · exact hg.ids p q hp hq heq
  · intro q hq
    rcases (hmember q).1 hq with rfl | hq
    · exact hj.linked_peer hnew hmem
    · exact hj.linked_old hnew hq (hg.linked q hq)
  · intro p hp
    have hpne : p ≠ peer := by
      rintro rfl
      rw [hj.peer.room] at hp
      cases hp
    rw [(hj.seats p hpne).1] at hp
    have hnot : p ∉ links.map Link.target := fun hin => not_member_of_none hp (hmem p hin)
    rw [hj.other p hpne hnot]
    exact hg.outside p hp
  · intro p hp
    rcases (hmember p).1 hp with rfl | hp
    · exact hj.peer.table
    · rcases hj.old_cases hnew hp with ⟨l, hl, rfl⟩ | ⟨-, hsame⟩
      · exact (hj.target l hl).table
      · rw [hsame]
        exact hg.table p hp
  · intro p i r hp ha hr
    rw [(hj.ids p).2.2.1] at ha
    rcases (hmember p).1 hp with rfl | hp
    · exact (hj.peer.route i r hr).2 ha
    rcases hj.old_cases hnew hp with ⟨l, hl, rfl⟩ | ⟨-, hsame⟩
    · rcases (hj.target l hl).route i r hr with hback | ⟨-, helig⟩
      · exact hg.audience _ i r hp ha hback
      · exact helig ha
    · rw [hsame] at hr
      exact hg.audience p i r hp ha hr

end

end

/-- In a coherent room nobody has a slot for a session that is about to join, nor has it one for
a member. -/
lemma Coherent.linkable (h : Coherent g) (hroom : (g.session peer).room = none)
    (hids : ∀ q, g.Member q → q ≠ peer → (g.session q).peerId ≠ (g.session peer).peerId) :
    Linkable g peer (g.targets peer) := by
  have hmem : ∀ t ∈ g.targets peer, g.Member t ∧ t ≠ peer := by
    intro t ht
    rw [h.seated.targets_eq, h.seated.mem_others] at ht
    exact ⟨ht.1, ht.2.1⟩
  constructor
  · rw [h.seated.targets_eq]
    exact h.seated.others_nodup
  · intro hin
    exact (hmem peer hin).2 rfl
  · intro t ht t' ht'
    exact h.ids t t' (hmem t ht).1 (hmem t' ht').1
  · intro t ht i gen heq
    rw [h.table t (hmem t ht).1] at heq
    obtain ⟨e, he, htag⟩ := map_eq_some_iff.1 heq
    obtain ⟨-, hpeerId, -⟩ : _ ∧ _ ∧ _ := by simpa using htag
    have hok := (h.linked t (hmem t ht).1).entry i e he
    have hne : e.subscriber ≠ peer := fun hsub =>
      not_member_of_none hroom (hsub ▸ hok.member)
    exact hids e.subscriber hok.member hne (by rw [← hok.peerId, hpeerId])
  · intro t _ i gen heq
    rw [(h.outside peer hroom).assigned] at heq
    cases heq

/-- What an attempt to add a peer can do: nothing, reservations that are undone, or a commit. -/
lemma addPeerResult_cases (g : Graph) (peer : SessionId) (o : AddOutcome) :
    let r := g.addPeerResult peer o
    (r.1 = g ∧ r.2 ≠ .ok) ∨
    ((g.session peer).room = none ∧ r.2 ≠ .ok ∧
      r.1 = (Graph.reserveLinks peer g (g.targets peer)).1.undo
          (Graph.reserveLinks peer g (g.targets peer)).2.1) ∨
    ∃ slot rest h rs links receivers fanout ps queue, (g.session peer).room = none ∧
      g.room.freeSlots = slot :: rest ∧
      Graph.reserveLinks peer g (g.targets peer) = (h, rs, some links) ∧
      h.prepareLinks peer o links 0 .empty .empty = some (receivers, fanout, ps) ∧
      g.addPeerResult peer o = (h.commitPeer peer slot receivers fanout ps queue, .ok) := by
  unfold Graph.addPeerResult
  split
  · exact .inl ⟨rfl, AdmissionResult.noConfusion⟩
  split
  · exact .inl ⟨rfl, AdmissionResult.noConfusion⟩
  rename_i hready
  have hroom : (g.session peer).room = none := by
    rw [not_or] at hready
    simpa using hready.1
  cases hfree : g.room.freeSlots with
  | nil => exact .inl ⟨rfl, AdmissionResult.noConfusion⟩
  | cons slot rest =>
    dsimp only
    split
    · exact .inl ⟨rfl, AdmissionResult.noConfusion⟩
    rcases Graph.reserveLinks peer g (g.targets peer) with ⟨h, rs, _ | links⟩
    · exact .inr (.inl ⟨hroom, AdmissionResult.noConfusion, rfl⟩)
    dsimp only
    split
    · rename_i receivers fanout ps queue hprepared hqueue
      refine .inr (.inr ⟨slot, rest, h, rs, links, receivers, fanout, ps, queue, hroom, rfl,
        rfl, ?_, rfl⟩)
      unfold Graph.prepare at hprepared
      split at hprepared
      · obtain ⟨prepared, hlinks, hif⟩ := bind_eq_some_iff.1 hprepared
        split at hif
        · rw [hlinks, hif]
        · cases hif
      · cases hprepared
    · exact .inr (.inl ⟨hroom, AdmissionResult.noConfusion, rfl⟩)

lemma Coherent.addPeerResult (hg : Coherent g)
    (hids : ∀ q, g.Member q → q ≠ peer → (g.session q).peerId ≠ (g.session peer).peerId)
    (o : AddOutcome) :
    Coherent (g.addPeerResult peer o).1 ∧
      ∀ q, ((g.addPeerResult peer o).1.session q).acceptsWork = (g.session q).acceptsWork := by
  rcases addPeerResult_cases g peer o with ⟨heq, -⟩ | ⟨hroom, -, heq⟩ |
    ⟨slot, rest, h, rs, links, receivers, fanout, ps, queue, hroom, hfree, hr, hprepared, heq⟩
  · rw [heq]
    exact ⟨hg, fun _ => rfl⟩
  · have hal := alike_undo_links undoing_assigned (hg.linkable hroom hids) fun _ => trivial
    rw [heq]
    refine ⟨hg.of_alike hal, fun q => ?_⟩
    obtain ⟨t, -, hq⟩ := hal.2.2 q
    rw [hq]
  · have hlinkable := hg.linkable hroom hids
    obtain ⟨hmap, hres⟩ := reserveLinks_spec hlinkable hr
    have hmem : ∀ t ∈ links.map Link.target, g.Member t := by
      intro t ht
      rw [hmap, hg.seated.targets_eq, hg.seated.mem_others] at ht
      exact ht.1
    have hnew : ¬ g.Member peer := not_member_of_none hroom
    have hfill : Filling (fun _ => none) links 0 (.empty : ReceiverSnapshot) .empty :=
      ⟨SlotMap.wf_empty, rfl, fun _ _ => SlotMap.find_empty, SlotMap.wf_empty, fun _ _ => rfl,
        fun _ _ => SlotMap.find_empty⟩
    have hwf : ∀ l ∈ links, (h.session l.target).receivers.WF ReceiverEntry.subscriber ∧
        (h.session l.target).fanoutBundle.WF FanoutRoute.subscriber := by
      intro l hl
      have hlinked := hg.linked l.target (hmem _ (mem_map_of_mem hl))
      rw [hres.only.field Session.receivers, hres.only.field Session.fanoutBundle]
      exact ⟨hlinked.receivers, hlinked.bundle⟩
    have hassigns := hres.assigns
    rw [(hg.outside peer hroom).assigned] at hassigns
    have hback : Assigns h (fun _ => none) links (h.session peer).remoteSlots.assigned :=
      assigns_congr hres.only.symm hassigns
    obtain ⟨hfilled, htags, hps⟩ :=
      prepareLinks_spec (hmap ▸ hlinkable.nodup) hwf hfill hback hprepared
    have hj : Joined g (h.commitPeer peer slot receivers fanout ps queue) peer slot links :=
      joined_commit hg hnew hmem (hmap ▸ hlinkable.nodup) hres hfilled htags.symm hps
    rw [heq]
    exact ⟨hj.coherent hnew hmem hg hids hfree, fun q => (hj.ids q).2.2.2⟩

end MezonSfu.RoomGraph
