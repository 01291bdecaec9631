import MezonSfu.RoomJoin

/-!
Role changes, refreshes and removals keep the room coherent.

A role change and a refresh reserve the missing slots and then go through the members one by one.
In between, some members have a slot for the peer without an entry, and some routes still say what
the peer was; `Relinking` says which.
-/

namespace MezonSfu.RoomGraph

open RemoteSlots Function Option

/-- The graph while `peer` is linked anew: the slots reserved but not yet used, and the members
whose route has still to be rewritten. -/
structure Relinking (g : Graph) (peer : SessionId) (pending : SessionId → Option (ℕ × ℕ))
    (todo : SessionId → Prop) : Prop extends Paired g where
  reserved : ∀ o r, pending o = some r → r.1 < maxRemoteSlots ∧ r.2 ≠ 0 ∧
    (g.session o).receivers.cells r.1 = none ∧
    snapshotFind (g.session o).receivers peer = none
  table : ∀ p, g.Member p → (g.session p).remoteSlots.assigned =
    match pending p with
    | none => tags (g.session p).receivers
    | some r => update (tags (g.session p).receivers) r.1
        (some ((g.session peer).userId, (g.session peer).peerId, r.2))
  audience : ∀ p i r, g.Member p → (g.session p).isAudience = true →
    (g.session p).fanoutBundle.cells i = some r → (p = peer → ¬ todo r.subscriber) →
    r.eligible.video = false ∧ r.eligible.screen = false

lemma Coherent.relinking {g : Graph} (h : Coherent g) (peer : SessionId)
    (todo : SessionId → Prop) : Relinking g peer (fun _ => none) todo :=
  { h.toPaired with
    reserved := by
      intro o r hr
      cases hr
    table := h.table
    audience := fun p i r hp ha hr _ => h.audience p i r hp ha hr }

lemma Relinking.coherent {g : Graph} {peer : SessionId} {pending : SessionId → Option (ℕ × ℕ)}
    {todo : SessionId → Prop} (h : Relinking g peer pending todo)
    (hpending : ∀ p, g.Member p → pending p = none)
    (htodo : ∀ i r, g.Member peer → (g.session peer).fanoutBundle.cells i = some r →
      ¬ todo r.subscriber) : Coherent g := by
  refine ⟨h.toPaired, ?_, ?_⟩
  · intro p hp
    rw [h.table p hp, hpending p hp]
  · intro p i r hp ha hr
    apply h.audience p i r hp ha hr
    rintro rfl
    exact htodo i r hp hr

/-- The next snapshot of `other`: its entry for `peer` is rewritten, or put at the reserved slot.
-/
structure Renewed (g : Graph) (peer other : SessionId) (pending : Option (ℕ × ℕ))
    (v : ℕ × ℕ) (snap : ReceiverSnapshot) : Prop where
  wf : snap.WF ReceiverEntry.subscriber
  view : snapView snap = update (g.session other).entryView peer (some v)
  entry : ∀ i e, snap.cells i = some e → EntryOk g other i e
  tags : tags snap = match pending with
    | none => tags (g.session other).receivers
    | some r => update (tags (g.session other).receivers) r.1
        (some ((g.session peer).userId, (g.session peer).peerId, r.2))

/-- What a loop may put in place for `other`. -/
def SnapFor (g : Graph) (peer other : SessionId) (pending : Option (ℕ × ℕ)) :
    Option ReceiverSnapshot → Prop
  | none => snapshotFind (g.session other).receivers peer = none ∧ pending = none
  | some snap => ∃ v, Renewed g peer other pending v snap

section

variable {g : Graph} {peer other : SessionId} {pending : SessionId → Option (ℕ × ℕ)}
  {todo : SessionId → Prop}

lemma renewed_rewrite (h : Relinking g peer pending todo) (ho : g.Member other)
    {f : ReceiverEntry → ReceiverEntry}
    (hf : ∀ e, e.subscriber = peer → e.publisherUserId = (g.session peer).userId →
      e.publisherPeerId = (g.session peer).peerId →
      (f e).subscriber = peer ∧ (f e).remoteSlot = e.remoteSlot ∧
        (f e).assignmentGeneration = e.assignmentGeneration ∧
        (f e).publisherUserId = (g.session peer).userId ∧
        (f e).publisherPeerId = (g.session peer).peerId)
    (hfind : (snapshotFind (g.session other).receivers peer).isSome) :
    ∃ snap, rewriteEntry (g.session other).receivers peer f true = some snap ∧
      ∃ v, Renewed g peer other (pending other) v snap := by
  have hl := h.linked other ho
  obtain ⟨k, hk⟩ := isSome_iff_exists.1 hfind
  obtain ⟨hlt, e, he, hkey⟩ := SlotMap.find_spec hk
  have hok := hl.entry k e he
  have hpending : pending other = none := by
    cases hp : pending other with
    | none => rfl
    | some r =>
      have hnone := (h.reserved other r hp).2.2.2
      rw [hk] at hnone
      cases hnone
  obtain ⟨hsub, hslot, hgen, huser, hpid⟩ :=
    hf e hkey (by rw [hok.userId, hkey]) (by rw [hok.peerId, hkey])
  have hsnap : rewriteEntry (g.session other).receivers peer f true =
      some ((g.session other).receivers.copySet k (some (f e))) := by
    unfold rewriteEntry copySet
    rw [hk, bind_some, he, bind_some, if_pos ⟨hlt, rfl⟩]
  have hcells : ((g.session other).receivers.copySet k (some (f e))).cells =
      update (g.session other).receivers.cells k (some (f e)) := rfl
  have hfits := hl.receivers.fits_found hk hsub
  refine ⟨_, hsnap, ((f e).remoteSlot, (f e).assignmentGeneration),
    hl.receivers.put hlt hfits hcells, ?_, ?_, ?_⟩
  · rw [← hsub]
    exact hl.receivers.view_put hlt hfits hcells
  · intro i e' he'
    rw [hcells] at he'
    obtain ⟨rfl, ⟨⟩⟩ | ⟨-, he'⟩ := update_cases he'
    · refine ⟨by rw [hslot, hok.slot], by rw [hgen]; exact hok.generation, ?_, ?_, ?_, ?_⟩
      · rw [hsub, ← hkey]
        exact hok.member
      · rw [hsub, ← hkey]
        exact hok.ne
      · rw [hsub, huser]
      · rw [hsub, hpid]
    · exact hl.entry i e' he'
  · rw [hpending]
    change tags _ = tags _
    funext j
    unfold tags
    rw [hcells]
    by_cases hj : j = k
    · rw [hj, update_self, he, map_some, map_some, huser, hpid, hgen, hok.userId, hok.peerId, hkey]
    · rw [update_of_ne hj]

lemma renewed_build (h : Relinking g peer pending todo) (hpeer : g.Member peer)
    (ho : g.Member other) (hne : other ≠ peer) {r : ℕ × ℕ} (hr : pending other = some r) :
    ∃ snap, g.snapshotBuildAt other peer r.1 r.2 true = some snap ∧
      Renewed g peer other (pending other) r snap := by
  have hl := h.linked other ho
  obtain ⟨hlt, hgen, hcell, hfind⟩ := h.reserved other r hr
  obtain ⟨snap, hsnap⟩ : ∃ snap, g.snapshotBuildAt other peer r.1 r.2 true = some snap := by
    refine ⟨(g.session other).receivers.copySet r.1 (some (g.newEntry peer r.1 r.2)), ?_⟩
    unfold Graph.snapshotBuildAt copySet
    rw [if_neg (by simp [hfind, hcell]), if_pos ⟨hlt, rfl⟩]
  have hbuilt := snapshotBuildAt_spec hsnap
  refine ⟨snap, hsnap, hbuilt.wf hl.receivers, hbuilt.view hl.receivers, ?_, ?_⟩
  · intro i e he
    rcases hbuilt.entry he with hold | ⟨hi, rfl⟩
    · exact hl.entry i e hold
    · exact ⟨hi.symm, hgen, hpeer, hne.symm, rfl, rfl⟩
  · rw [hr]
    exact hbuilt.tags

end

/-! ### Relinking one member -/

section

variable {g : Graph} {peer other : SessionId} {pending : SessionId → Option (ℕ × ℕ)}
  {todo : SessionId → Prop} {o : RefreshOutcome}

lemma relink_field {snap : Option ReceiverSnapshot} {A : Type} (field : Session → A)
    (h1 : ∀ s r, field { s with receivers := r } = field s := by intros; rfl)
    (h2 : ∀ s b, field { s with fanoutBundle := b } = field s := by intros; rfl) {q : SessionId} :
    field ((g.relink peer other snap o).session q) = field (g.session q) := by
  unfold Graph.relink Graph.fanoutReplace Graph.snapshotReplace
  rw [modify_field field fun s => h2 s _, modify_field field fun s => h1 s _]

lemma fanoutChangeFrom_isSome (h : Paired g) (hpeer : g.Member peer) (ho : g.Member other)
    (hne : other ≠ peer) {snap : ReceiverSnapshot} {v : ℕ × ℕ} (hv : snapView snap peer = some v)
    (runtime : Bool) :
    ∃ bundle, g.fanoutChangeFrom peer other (some snap) runtime true = some bundle := by
  set pub := g.session peer
  obtain ⟨k, hk⟩ : ∃ k, (bundleFind pub.fanoutBundle other).or
      pub.fanoutBundle.firstEmpty = some k := by
    cases hf : bundleFind pub.fanoutBundle other with
    | some k => exact ⟨k, rfl⟩
    | none =>
      obtain ⟨k, hk⟩ := h.exists_empty hpeer ho hne hf
      exact ⟨k, hk⟩
  have hlt : k < maxRemoteSlots := by
    cases hf : bundleFind pub.fanoutBundle other with
    | some k' =>
      rw [hf, some_or, Option.some.injEq] at hk
      exact hk ▸ (SlotMap.find_spec hf).1
    | none =>
      rw [hf, none_or] at hk
      exact (SlotMap.firstEmpty_spec hk).1
  obtain ⟨r, hr⟩ : ∃ r, g.fanoutRouteFill peer other snap runtime = some r := by
    obtain ⟨i, hi, hmap⟩ := bind_eq_some_iff.1 hv
    obtain ⟨e, he, -⟩ := map_eq_some_iff.1 hmap
    unfold Graph.fanoutRouteFill snapshotFind
    rw [hi, bind_some, he, map_some]
    exact ⟨_, rfl⟩
  refine ⟨pub.fanoutBundle.copySet k (some r), ?_⟩
  unfold Graph.fanoutChangeFrom copySet
  dsimp only
  rw [hk, bind_some, getD_some, hr, bind_some, if_pos ⟨hlt, rfl⟩]

/-- `other` has got the snapshot `snap`, and `peer` the bundle. -/
structure Relinked (g g' : Graph) (peer other : SessionId) (snap : ReceiverSnapshot)
    (bundle : FanoutBundle) : Prop where
  room : g'.room = g.room
  session : ∀ q, g'.session q = { g.session q with
    receivers := if q = other then snap else (g.session q).receivers
    fanoutBundle := if q = peer then bundle else (g.session q).fanoutBundle }

variable {pend : Option (ℕ × ℕ)} {v : ℕ × ℕ} {snap : ReceiverSnapshot} {bundle : FanoutBundle}
  {g' : Graph} {q : SessionId}

lemma relinked_relink (h : Paired g) (hpeer : g.Member peer) (ho : g.Member other)
    (hne : other ≠ peer) (hsnap : Renewed g peer other pend v snap) (hok : o.fanout other) :
    ∃ bundle, Routed g peer other (g.session peer).fanoutBundle v bundle ∧
      Relinked g (g.relink peer other (some snap) o) peer other snap bundle := by
  have hv : snapView snap peer = some v := by rw [hsnap.view, update_self]
  -- publishing the snapshot leaves the peer as it is
  have hsame : (g.snapshotReplace other (some snap)).session peer = g.session peer :=
    modify_of_ne hne.symm
  have hchange : (g.snapshotReplace other (some snap)).fanoutChangeFrom peer other (some snap)
        (o.runtime other) (o.fanout other) =
      g.fanoutChangeFrom peer other (some snap) (o.runtime other) true := by
    unfold Graph.fanoutChangeFrom Graph.fanoutRouteFill
    rw [hsame, hok]
    rfl
  obtain ⟨bundle, hbundle⟩ := fanoutChangeFrom_isSome h hpeer ho hne hv (o.runtime other)
  obtain ⟨v', hv', hrouted⟩ := fanoutChangeFrom_spec (h.linked peer hpeer).bundle hbundle
  rw [getD_some, hv, Option.some.injEq] at hv'
  subst hv'
  refine ⟨bundle, hrouted, rfl, fun q => ?_⟩
  unfold Graph.relink Graph.fanoutReplace
  dsimp only
  rw [hchange, hbundle]
  by_cases hqp : q = peer
  · rw [hqp, modify_self, hsame, if_neg hne.symm, if_pos rfl]
    rfl
  rw [modify_of_ne hqp, if_neg hqp]
  unfold Graph.snapshotReplace
  by_cases hqo : q = other
  · rw [hqo, modify_self, if_pos rfl]
    rfl
  · rw [modify_of_ne hqo, if_neg hqo]

lemma Relinked.member_iff (hr : Relinked g g' peer other snap bundle) (q : SessionId) :
    g'.Member q ↔ g.Member q := by
  unfold Graph.Member
  rw [hr.session, hr.room]

lemma Relinked.linked (hr : Relinked g g' peer other snap bundle) (hl : Linked g q)
    (ho : g.Member other) (hne : other ≠ peer) (hsnap : Renewed g peer other pend v snap)
    (hrouted : Routed g peer other (g.session peer).fanoutBundle v bundle) : Linked g' q := by
  have hentry : ∀ {i e}, EntryOk g q i e → EntryOk g' q i e := fun he =>
    he.of_same ((hr.member_iff _).2 he.member) (by rw [hr.session]) (by rw [hr.session])
  have hroute : ∀ {i r}, (g.session q).fanoutBundle.cells i = some r →
      g'.Member r.subscriber ∧ r.subscriber ≠ q := fun h =>
    ⟨(hr.member_iff _).2 (hl.route _ _ h).1, (hl.route _ _ h).2⟩
  constructor
  · rw [hr.session]
    dsimp only
    split_ifs
    · exact hsnap.wf
    · exact hl.receivers
  · rw [hr.session]
    dsimp only
    split_ifs
    · exact hrouted.wf
    · exact hl.bundle
  · intro i e he
    rw [hr.session] at he
    dsimp only at he
    split_ifs at he with hq
    · subst hq
      exact hentry (hsnap.entry i e he)
    · exact hentry (hl.entry i e he)
  · intro i r he
    rw [hr.session] at he
    dsimp only at he
    split_ifs at he with hq
    · subst hq
      rcases hrouted.route i r he with ⟨-, hold⟩ | ⟨hsub, -⟩
      · exact hroute hold
      · rw [hsub]
        exact ⟨(hr.member_iff _).2 ho, hne⟩
    · exact hroute he

lemma Relinked.paired (hr : Relinked g g' peer other snap bundle) (h : Paired g)
    (hpeer : g.Member peer) (ho : g.Member other) (hne : other ≠ peer)
    (hsnap : Renewed g peer other pend v snap)
    (hrouted : Routed g peer other (g.session peer).fanoutBundle v bundle) : Paired g' := by
  have hmem := hr.member_iff
  refine ⟨h.seated.of_same hr.room hmem fun q => by rw [hr.session], ?_,
    fun p hp => hr.linked (h.linked p ((hmem p).1 hp)) ho hne hsnap hrouted, ?_, ?_⟩
  · intro p q hp hq heq
    rw [hr.session, hr.session] at heq
    exact h.ids p q ((hmem p).1 hp) ((hmem q).1 hq) heq
  · intro p s hp hs
    have hdual := h.dual p s ((hmem p).1 hp) ((hmem s).1 hs)
    unfold Session.routeView Session.entryView at hdual ⊢
    rw [hr.session, hr.session]
    by_cases hpp : p = peer <;> by_cases hso : s = other
    · rw [if_pos hpp, if_pos hso, hrouted.view, hsnap.view, hpp, hso, update_self, update_self]
    · rw [if_pos hpp, if_neg hso, hrouted.view, update_of_ne hso, ← hpp]
      exact hdual
    · rw [if_neg hpp, if_pos hso, hsnap.view, update_of_ne hpp, ← hso]
      exact hdual
    · rw [if_neg hpp, if_neg hso]
      exact hdual
  · intro p hp
    rw [hr.session] at hp ⊢
    have hne1 : p ≠ peer := fun heq => not_member_of_none hp (heq ▸ hpeer)
    have hne2 : p ≠ other := fun heq => not_member_of_none hp (heq ▸ ho)
    rw [if_neg hne1, if_neg hne2]
    exact h.outside p hp

lemma relink_none (hfind : snapshotFind (g.session other).receivers peer = none) :
    g.relink peer other none o = g := by
  have hsame : g.snapshotReplace other none = g := modify_id rfl
  have hnone : g.fanoutChangeFrom peer other none (o.runtime other) (o.fanout other) = none := by
    unfold Graph.fanoutChangeFrom Graph.fanoutRouteFill
    rw [getD_none, hfind]
    simp
  unfold Graph.relink
  dsimp only
  rw [hsame, hnone]
  exact modify_id rfl

/-- A member that does not get a snapshot has no route to be rewritten. -/
lemma Relinking.skip (h : Relinking g peer pending todo) (ho : g.Member other)
    (hfind : snapshotFind (g.session other).receivers peer = none) :
    Relinking g peer pending fun q => todo q ∧ q ≠ other := by
  refine { h.toPaired with reserved := h.reserved, table := h.table, audience := ?_ }
  intro p i r hp ha hr htodo
  apply h.audience p i r hp ha hr
  rintro rfl hsub
  -- no entry of `other`, so no route to it
  by_cases heq : r.subscriber = other
  · have hview : (g.session p).routeView r.subscriber =
        some (r.remoteSlot, r.assignmentGeneration) :=
      (h.linked p hp).bundle.view_of_cells hr
    have hnoEntry : (g.session other).entryView p = none := SlotMap.view_eq_none.2 hfind
    rw [heq, h.dual p other hp ho, hnoEntry] at hview
    cases hview
  · exact htodo rfl ⟨hsub, heq⟩

lemma Relinking.relink (h : Relinking g peer pending todo) (hpeer : g.Member peer)
    (ho : g.Member other) (hne : other ≠ peer) {snap : Option ReceiverSnapshot}
    (hsnap : SnapFor g peer other (pending other) snap) (hok : o.fanout other) :
    Relinking (g.relink peer other snap o) peer (update pending other none)
      (fun q => todo q ∧ q ≠ other) := by
  cases snap with
  | none =>
    obtain ⟨hfind, hnone⟩ := hsnap
    rw [relink_none hfind, ← hnone, update_eq_self]
    exact h.skip ho hfind
  | some snap =>
    obtain ⟨v, hren⟩ := hsnap
    obtain ⟨bundle, hrouted, hr⟩ := relinked_relink h.toPaired hpeer ho hne hren hok
    refine ⟨hr.paired h.toPaired hpeer ho hne hren hrouted, ?_, ?_, ?_⟩
    · intro q r hq
      obtain ⟨-, ⟨⟩⟩ | ⟨hqo, hq⟩ := update_cases hq
      rw [hr.session, if_neg hqo]
      exact h.reserved q r hq
    · intro p hp
      have htable := h.table p ((hr.member_iff p).1 hp)
      rw [hr.session, hr.session peer]
      by_cases hpo : p = other
      · rw [hpo] at htable ⊢
        rw [update_self, if_pos rfl, htable]
        exact hren.tags.symm
      · rw [update_of_ne hpo, if_neg hpo]
        exact htable
    · intro p i r hp ha hroute htodo
      rw [hr.session] at ha hroute
      dsimp only at ha hroute
      split_ifs at hroute with hpp
      · subst hpp
        rcases hrouted.route i r hroute with ⟨hsub, hold⟩ | ⟨hsub, runtime, helig⟩
        · exact h.audience p i r hpeer ha hold fun _ hin => htodo rfl ⟨hin, hsub⟩
        · rw [helig]
          exact fanoutEligibility_audience ha runtime
      · exact h.audience p i r ((hr.member_iff p).1 hp) ha hroute fun heq => absurd heq hpp

end

end MezonSfu.RoomGraph
