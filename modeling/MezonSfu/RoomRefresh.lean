import MezonSfu.RoomRelink

/-!
Role changes, refreshes and push-to-talk keep the room coherent.

Each first reserves the slots that are missing, then relinks the members one by one. A failed
reservation is undone; after a complete loop nothing is pending and no route is left as it was.
-/

namespace MezonSfu.RoomGraph

open RemoteSlots Function List

/-! ### The lazy reservations -/

/-- The slot reserved of `o`, as the loops look it up. -/
def pendingOf (rs : List SlotReservation) (o : SessionId) : Option (ℕ × ℕ) :=
  (rs.find? (·.owner = o)).map fun r => (r.slot, r.generation)

@[simp] lemma pendingOf_nil (o : SessionId) : pendingOf [] o = none := rfl

lemma pendingOf_cons (r : SlotReservation) (rs : List SlotReservation) (o : SessionId) :
    pendingOf (r :: rs) o =
      if r.owner = o then some (r.slot, r.generation) else pendingOf rs o := by
  unfold pendingOf
  split_ifs with h <;> simp [h]

/-- What a pending slot of `q` is: new, and the only change. -/
def PendingOk (g : Graph) (peer q : SessionId) (s : Session) : Option (ℕ × ℕ) → Prop
  | none => s = g.session q
  | some r => r.1 < maxRemoteSlots ∧ r.2 ≠ 0 ∧
      snapshotFind (g.session q).receivers peer = none ∧
      (g.session q).remoteSlots.assigned r.1 = none ∧
      s.remoteSlots.assigned = update (g.session q).remoteSlots.assigned r.1
        (some ((g.session peer).userId, (g.session peer).peerId, r.2))

variable {rs : List SlotReservation} {snap : Graph → SessionId → Option ReceiverSnapshot} {a : Bool}
  {other : SessionId} {A : Type} {f : Session → Session} {h : Graph}

section

variable {g : Graph} {peer : SessionId}

lemma lazyReserve_spec {others : List SessionId} (hnd : others.Nodup)
    (hv : ∀ o ∈ others, snapshotFind (g.session o).receivers peer = none → g.Vacant o peer)
    (hr : Graph.lazyReserve peer g others = (h, rs, true)) :
    OnlySlots g h ∧ (∀ q ∉ others, pendingOf rs q = none) ∧
      ∀ q, PendingOk g peer q (h.session q) (pendingOf rs q) := by
  induction others generalizing g rs with
  | nil =>
    obtain ⟨rfl, rfl⟩ : g = h ∧ rs = [] := by simpa [Graph.lazyReserve] using hr
    exact ⟨.refl g, fun _ _ => rfl, fun _ => rfl⟩
  | cons other others ih =>
    rw [nodup_cons] at hnd
    unfold Graph.lazyReserve at hr
    split at hr
    · obtain ⟨honly, hnone, hok⟩ := ih hnd.2 (fun o ho => hv o (.tail _ ho)) hr
      refine ⟨honly, ?_, hok⟩
      intro q hq
      exact hnone q fun hin => hq (.tail _ hin)
    rename_i hfind
    have hnoEntry : snapshotFind (g.session other).receivers peer = none := by
      simpa using hfind
    have hvo := hv other (.head _) hnoEntry
    cases hs : (g.reserveSlot other peer).2 with
    | none =>
      rw [show g.reserveSlot other peer = ((g.reserveSlot other peer).1, none) from
        Prod.ext rfl hs] at hr
      simp at hr
    | some r =>
      rw [show g.reserveSlot other peer = ((g.reserveSlot other peer).1, some r) from
        Prod.ext rfl hs] at hr
      dsimp only at hr
      rcases hl : Graph.lazyReserve peer (g.reserveSlot other peer).1 others with
        ⟨h', rs', done⟩
      rw [hl] at hr
      obtain ⟨rfl, rfl, rfl⟩ : _ ∧ _ ∧ _ := by simpa using hr
      have hone := onlySlots_reserveSlot g other peer
      obtain ⟨honly, hnone, hok⟩ := ih hnd.2 (by
        intro o ho hno
        have hne : o ≠ other := fun heq => hnd.1 (heq ▸ ho)
        rw [reserveSlot_of_ne hne] at hno
        exact (hv o (.tail _ ho) hno).reserveSlot hvo (.inl hne)) hl
      refine ⟨hone.trans honly, ?_, ?_⟩
      · intro q hq
        rw [mem_cons, not_or] at hq
        rw [pendingOf_cons, if_neg (Ne.symm hq.1)]
        exact hnone q hq.2
      intro q
      rw [pendingOf_cons]
      by_cases hq : q = other
      · -- the rest of the loop does not touch `other` again
        subst hq
        rw [if_pos rfl]
        have hkept := hok q
        rw [hnone q hnd.1] at hkept
        obtain ⟨hlt, hgen, hfree, hassigned⟩ := reserveSlot_some hvo hs
        rw [hkept]
        exact ⟨hlt, hgen, hnoEntry, hfree, hassigned⟩
      · rw [if_neg (Ne.symm hq)]
        have hkept := hok q
        cases hp : pendingOf rs' q with
        | none =>
          rw [hp] at hkept
          exact hkept.trans (reserveSlot_of_ne hq)
        | some s =>
          rw [hp] at hkept
          unfold PendingOk at hkept ⊢
          rwa [reserveSlot_of_ne hq, hone.session peer] at hkept

lemma Coherent.vacant (hg : Coherent g) (hpeer : g.Member peer) {o : SessionId} (ho : g.Member o)
    (hfind : snapshotFind (g.session o).receivers peer = none) : g.Vacant o peer := by
  intro i gen heq
  rw [hg.table o ho] at heq
  obtain ⟨e, he, htag⟩ := Option.map_eq_some_iff.1 heq
  obtain ⟨-, hpid, -⟩ : _ ∧ _ ∧ _ := by simpa using htag
  have hl := hg.linked o ho
  have hok := hl.entry i e he
  have hsub : e.subscriber = peer := hg.ids _ _ hok.member hpeer (by rw [← hok.peerId, hpid])
  have hfound := hl.receivers.find_of_cells he
  rw [hsub] at hfound
  unfold snapshotFind at hfind
  rw [hfind] at hfound
  cases hfound

lemma Coherent.vacant_others (hg : Coherent g) (hpeer : g.Member peer) :
    ∀ o ∈ g.others peer, snapshotFind (g.session o).receivers peer = none → g.Vacant o peer := by
  intro o ho
  exact hg.vacant hpeer (hg.seated.mem_others.1 ho).1

lemma OnlySlots.member (hs : OnlySlots g h) (q : SessionId) : h.Member q ↔ g.Member q := by
  unfold Graph.Member
  rw [hs.field Session.room, hs.room]

lemma Coherent.relinking_lazy (hg : Coherent g) (hpeer : g.Member peer)
    (hr : Graph.lazyReserve peer g (g.others peer) = (h, rs, true)) (todo : SessionId → Prop) :
    OnlySlots g h ∧ Relinking h peer (pendingOf rs) todo := by
  obtain ⟨honly, hnone, hok⟩ := lazyReserve_spec hg.seated.others_nodup (hg.vacant_others hpeer) hr
  refine ⟨honly, ?_⟩
  refine ⟨hg.toPaired.of_same honly.room ?_ ?_, ?_, ?_, ?_⟩
  · intro p
    rw [honly.session p]
    exact ⟨rfl, rfl, rfl, rfl, rfl, rfl⟩
  · intro p hp
    have hout : p ∉ g.others peer := fun hin =>
      not_member_of_none hp (hg.seated.mem_others.1 hin).1
    have hsame := hok p
    rw [hnone p hout] at hsame
    rw [hsame]
  · intro o r hpend
    have hin : o ∈ g.others peer := by
      by_contra hout
      rw [hnone o hout] at hpend
      cases hpend
    have hpo := hok o
    rw [hpend] at hpo
    obtain ⟨hlt, hgen, hfind, hfree, -⟩ := hpo
    rw [honly.session o]
    refine ⟨hlt, hgen, ?_, hfind⟩
    rw [hg.table o (hg.seated.mem_others.1 hin).1] at hfree
    exact Option.map_eq_none_iff.1 hfree
  · intro p hp
    have htable := hg.table p ((honly.member p).1 hp)
    have hpo := hok p
    rw [honly.field Session.receivers fun _ _ => rfl,
      honly.field Session.userId fun _ _ => rfl, honly.field Session.peerId fun _ _ => rfl]
    cases hpend : pendingOf rs p with
    | none =>
      rw [hpend] at hpo
      rw [hpo]
      exact htable
    | some r =>
      rw [hpend] at hpo
      rw [hpo.2.2.2.2, htable]
  · intro p i r hp ha hroute _
    rw [honly.session p] at ha hroute
    exact hg.audience p i r ((honly.member p).1 hp) ha hroute

end

section

variable {g : Graph} {peer : SessionId} {pending : SessionId → Option (ℕ × ℕ)}
  {todo : SessionId → Prop} {o : RefreshOutcome}

lemma relink_same (g : Graph) (peer other : SessionId) (snap : Option ReceiverSnapshot)
    (o : RefreshOutcome) (q : SessionId) :
    let r := g.relink peer other snap o
    (r.Member q ↔ g.Member q) ∧ (r.session q).isAudience = (g.session q).isAudience ∧
      (r.session q).acceptsWork = (g.session q).acceptsWork := by
  refine ⟨?_, relink_field Session.isAudience (fun _ _ => rfl) fun _ _ => rfl,
    relink_field Session.acceptsWork (fun _ _ => rfl) fun _ _ => rfl⟩
  unfold Graph.Member
  rw [relink_field Session.room (fun _ _ => rfl) fun _ _ => rfl]
  rfl

/-- **The loop**: with a fitting snapshot for every member, afterwards nothing is pending for the
members passed, and none is left to do. -/
lemma Relinking.loop (ha : (g.session peer).isAudience = a)
    (hsnap : ∀ g' pend' todo' other, Relinking g' peer pend' todo' → g'.Member peer →
      (g'.session peer).isAudience = a → g'.Member other → other ≠ peer →
      pend' other = pending other → SnapFor g' peer other (pend' other) (snap g' other))
    (hok : ∀ q, o.fanout q) {os : List SessionId} (hnd : os.Nodup)
    (hmem : ∀ q ∈ os, g.Member q ∧ q ≠ peer) (hpeer : g.Member peer)
    {pend : SessionId → Option (ℕ × ℕ)} (hpend : ∀ q ∈ os, pend q = pending q)
    (h : Relinking g peer pend todo) :
    Relinking (os.foldl (fun g q => g.relink peer q (snap g q) o) g) peer
      (fun q => if q ∈ os then none else pend q) (fun q => todo q ∧ q ∉ os) := by
  induction os generalizing g pend todo with
  | nil => simpa using h
  | cons other os ih =>
    rw [nodup_cons] at hnd
    obtain ⟨hother, hne⟩ := hmem other (.head _)
    have hfits := hsnap g pend todo other h hpeer ha hother hne (hpend other (.head _))
    have hstep := h.relink hpeer hother hne hfits (hok other)
    have hsame := relink_same g peer other (snap g other) o
    have hrest := ih ((hsame peer).2.1.trans ha) hnd.2
      (fun q hq => ⟨(hsame q).1.2 (hmem q (.tail _ hq)).1, (hmem q (.tail _ hq)).2⟩)
      ((hsame peer).1.2 hpeer)
      (fun q hq => by
        have hqne : q ≠ other := fun heq => hnd.1 (heq ▸ hq)
        rw [update_of_ne hqne]
        exact hpend q (.tail _ hq)) hstep
    have hpending : (fun q => if q ∈ other :: os then none else pend q) =
        fun q => if q ∈ os then none else update pend other none q := by
      funext q
      by_cases hq : q = other
      · simp [hq]
      · simp [hq]
    have htodo : (fun q => todo q ∧ q ∉ other :: os) =
        fun q => (todo q ∧ q ≠ other) ∧ q ∉ os := by
      funext q
      rw [mem_cons, not_or, and_assoc]
    rw [hpending, htodo]
    exact hrest

lemma foldl_relink_same (os : List SessionId) (g : Graph) (q : SessionId) :
    let g' := os.foldl (fun g q => g.relink peer q (snap g q) o) g
    (g'.Member q ↔ g.Member q) ∧ (g'.session q).acceptsWork = (g.session q).acceptsWork := by
  induction os generalizing g with
  | nil => exact ⟨.rfl, rfl⟩
  | cons other os ih =>
    have hsame := relink_same g peer other (snap g other) o q
    obtain ⟨hm, hw⟩ := ih (g.relink peer other (snap g other) o)
    exact ⟨hm.trans hsame.1, hw.trans hsame.2.2⟩

lemma snapFor_current (h : Relinking g peer pending todo) (hpeer : g.Member peer)
    (ho : g.Member other) (hne : other ≠ peer) (hpend : pending other = pendingOf rs other) :
    SnapFor g peer other (pending other) (g.snapshotCurrent peer other rs true) := by
  unfold Graph.snapshotCurrent
  split
  · rename_i hfind
    obtain ⟨snap, hsnap, hren⟩ := renewed_rewrite h ho
      (f := fun e => snapshotFillEntry e peer (g.session peer))
      (fun e _ _ _ => ⟨rfl, rfl, rfl, rfl, rfl⟩) hfind
    unfold Graph.snapshotRefreshEntry
    rw [hsnap]
    exact hren
  · rename_i hfind
    cases hr : rs.find? (·.owner = other) with
    | none =>
      refine ⟨by simpa using hfind, ?_⟩
      rw [hpend, pendingOf, hr]
      rfl
    | some r =>
      have hp : pending other = some (r.slot, r.generation) := by
        rw [hpend, pendingOf, hr]
        rfl
      obtain ⟨snap, hsnap, hren⟩ := renewed_build h hpeer ho hne hp
      rw [Option.bind_some, hsnap]
      exact ⟨_, hren⟩

lemma snapFor_deactivate (h : Relinking g peer pending todo) (ho : g.Member other)
    (hpend : pending other = none) :
    SnapFor g peer other (pending other) (g.snapshotDeactivateEntry other peer true) := by
  unfold Graph.snapshotDeactivateEntry
  cases hfind : snapshotFind (g.session other).receivers peer with
  | none =>
    have hnone : ∀ f, rewriteEntry (g.session other).receivers peer f true = none := by
      intro f
      unfold rewriteEntry
      rw [hfind]
      rfl
    rw [hnone]
    exact ⟨hfind, hpend⟩
  | some k =>
    obtain ⟨snap, hsnap, hren⟩ := renewed_rewrite h ho (f := ReceiverEntry.deactivated)
      (fun e h1 h2 h3 => ⟨h1, rfl, rfl, h2, h3⟩) (by rw [hfind]; rfl)
    rw [hsnap]
    exact hren

end

/-! ### The operations -/

section

variable {g : Graph} {peer : SessionId}

lemma modify_session (hf : ∀ s, ∃ a m, f s = { s with isAudience := a, media := m })
    (g : Graph) (peer q : SessionId) :
    ∃ a m, (g.modify peer f).session q = { g.session q with isAudience := a, media := m } := by
  by_cases hq : q = peer
  · rw [hq, modify_self]
    exact hf _
  · rw [modify_of_ne hq]
    exact ⟨_, _, rfl⟩

/-- What an operation on a member leaves alone. -/
def SameWork (g g' : Graph) : Prop := ∀ q, (g'.session q).acceptsWork = (g.session q).acceptsWork

lemma sameWork_modify (hf : ∀ s, ∃ a m, f s = { s with isAudience := a, media := m })
    (peer : SessionId) : SameWork g (g.modify peer f) := by
  intro q
  obtain ⟨a, m, hs⟩ := modify_session hf g peer q
  rw [hs]

lemma modify_member (hf : ∀ s, ∃ a m, f s = { s with isAudience := a, media := m })
    (peer q : SessionId) : (g.modify peer f).Member q ↔ g.Member q := by
  obtain ⟨a, m, hs⟩ := modify_session hf g peer q
  unfold Graph.Member
  rw [hs]
  rfl

lemma Paired.modify (h : Paired g) (hf : ∀ s, ∃ a m, f s = { s with isAudience := a, media := m }) :
    Paired (g.modify peer f) := by
  refine h.of_same modify_room ?_ ?_
  · intro p
    obtain ⟨a, m, hs⟩ := modify_session hf g peer p
    rw [hs]
    exact ⟨rfl, rfl, rfl, rfl, rfl, rfl⟩
  · intro p _
    obtain ⟨a, m, hs⟩ := modify_session hf g peer p
    rw [hs]

lemma Relinking.modify {pending : SessionId → Option (ℕ × ℕ)}
    (h : Relinking g peer pending fun _ => True)
    (hf : ∀ s, ∃ a m, f s = { s with isAudience := a, media := m }) :
    Relinking (g.modify peer f) peer pending fun _ => True := by
  refine ⟨h.toPaired.modify hf, ?_, ?_, ?_⟩
  · intro q r hr
    obtain ⟨a, m, hs⟩ := modify_session hf g peer q
    rw [hs]
    exact h.reserved q r hr
  · intro p hp
    obtain ⟨a, m, hs⟩ := modify_session hf g peer p
    obtain ⟨_, _, hpeer⟩ := modify_session hf g peer peer
    rw [hs, hpeer]
    exact h.table p ((modify_member hf peer p).1 hp)
  · intro p i r hp ha hr htodo
    have hne : p ≠ peer := fun heq => htodo heq trivial
    rw [modify_of_ne hne] at ha hr
    exact h.audience p i r ((modify_member hf peer p).1 hp) ha hr htodo

lemma modify_media_field (f : Session → Media) (field : Session → A)
    (hfield : ∀ s m, field { s with media := m } = field s := by intros; rfl) :
    field ((g.modify peer fun s => { s with media := f s }).session q) = field (g.session q) :=
  modify_field field fun s => hfield s _

lemma Coherent.modify_media (hg : Coherent g) (f : Session → Media) :
    Coherent (g.modify peer fun s => { s with media := f s }) := by
  have hf : ∀ s : Session, ∃ a m,
      { s with media := f s } = { s with isAudience := a, media := m } := fun s => ⟨_, _, rfl⟩
  refine ⟨hg.toPaired.modify hf, ?_, ?_⟩
  · intro p hp
    obtain ⟨a, m, hs⟩ := modify_session hf g peer p
    rw [hs]
    exact hg.table p ((modify_member hf peer p).1 hp)
  · intro p i r hp ha hr
    rw [modify_media_field f Session.isAudience] at ha
    rw [modify_media_field f Session.fanoutBundle] at hr
    exact hg.audience p i r ((modify_member hf peer p).1 hp) ha hr

/-- A loop over the other members can start: they accept work, and what is pending is for them. -/
structure Ready (g : Graph) (peer : SessionId) (rs : List SlotReservation)
    (todo : SessionId → Prop) : Prop extends Relinking g peer (pendingOf rs) todo where
  member : g.Member peer
  work : ∀ q, (g.session q).acceptsWork
  pending : ∀ q ∉ g.others peer, pendingOf rs q = none

/-- **A complete loop over the other members** leaves the room coherent: what was pending belongs
to a member passed, and every route of the peer leads to one. -/
lemma Ready.coherent_loop {todo : SessionId → Prop} {o : RefreshOutcome}
    (h : Ready g peer rs todo) (ha : (g.session peer).isAudience = a)
    (hsnap : ∀ g' pend' todo' other, Relinking g' peer pend' todo' → g'.Member peer →
      (g'.session peer).isAudience = a → g'.Member other → other ≠ peer →
      pend' other = pendingOf rs other → SnapFor g' peer other (pend' other) (snap g' other))
    (hok : ∀ q, o.fanout q) :
    let g' := (g.others peer).foldl (fun g q => g.relink peer q (snap g q) o) g
    Coherent g' ∧ SameWork g g' := by
  have hothers : ∀ q ∈ g.others peer, g.Member q ∧ q ≠ peer := by
    intro q hq
    have := h.seated.mem_others.1 hq
    exact ⟨this.1, this.2.1⟩
  have hloop := h.loop ha hsnap hok h.seated.others_nodup hothers h.member fun _ _ => rfl
  refine ⟨hloop.coherent ?_ ?_, fun q => (foldl_relink_same _ _ q).2⟩
  · intro p _
    split_ifs with hp
    · rfl
    · exact h.pending p hp
  · intro i r hm hr
    have hroute := (hloop.linked peer hm).route i r hr
    have hmember := (foldl_relink_same (g.others peer) g r.subscriber).1.1 hroute.1
    rintro ⟨-, hnot⟩
    exact hnot (h.seated.mem_others.2 ⟨hmember, hroute.2, h.work _⟩)

lemma OnlySlots.others (hs : OnlySlots g h) (peer : SessionId) : h.others peer = g.others peer := by
  unfold Graph.others Graph.members
  rw [hs.room]
  apply filter_congr
  intro q _
  rw [hs.field Session.acceptsWork]

lemma Ready.coherent_role (h : Ready g peer rs fun _ => True)
    (hrs : (g.session peer).isAudience → rs = []) :
    let g' := (g.others peer).foldl (Graph.relinkRole peer rs .well) g
    Coherent g' ∧ SameWork g g' := by
  refine h.coherent_loop rfl ?_ fun _ => rfl
  intro g' pend' todo' other h' hpeer' ha' ho hne hp
  split
  · rename_i haud
    apply snapFor_deactivate h' ho
    rw [hp, hrs (ha' ▸ haud)]
    rfl
  · exact snapFor_current h' hpeer' ho hne hp

/-- The loop of a refresh; the list of sessions to renegotiate is of no concern. -/
lemma foldl_relinkStreams (publish : Bool) (rs : List SlotReservation) (o : RefreshOutcome)
    (os : List SessionId) (acc : Graph × List SessionId) :
    (os.foldl (Graph.relinkStreams peer publish rs o) acc).1 =
      os.foldl (fun g q => g.relink peer q
        (if (snapshotFind (g.session q).receivers peer).isSome ∨ publish then
          g.snapshotCurrent peer q rs (o.receivers q) else none) o) acc.1 := by
  induction os generalizing acc with
  | nil => rfl
  | cons q os ih => exact ih _

lemma Ready.coherent_streams {publish : Bool} {acc : List SessionId}
    (h : Ready g peer rs fun _ => False) (hrs : publish = false → rs = []) :
    let g' := ((g.others peer).foldl (Graph.relinkStreams peer publish rs .well) (g, acc)).1
    Coherent g' ∧ SameWork g g' := by
  rw [foldl_relinkStreams]
  refine h.coherent_loop rfl ?_ fun _ => rfl
  intro g' pend' todo' other h' hpeer' _ ho hne hp
  split
  · exact snapFor_current h' hpeer' ho hne hp
  rename_i hno
  rw [not_or] at hno
  refine ⟨by simpa using hno.1, ?_⟩
  rw [hp, hrs (by simpa using hno.2)]
  rfl

lemma Coherent.lazyReserve_cases (hg : Coherent g) (hpeer : g.Member peer)
    (hwork : ∀ q, (g.session q).acceptsWork) (todo : SessionId → Prop) :
    ∃ h rs done, Graph.lazyReserve peer g (g.others peer) = (h, rs, done) ∧
      ((done = false ∧ Coherent (h.undo rs) ∧ SameWork g (h.undo rs)) ∨
        (done ∧ OnlySlots g h ∧ Ready h peer rs todo)) := by
  rcases hr : Graph.lazyReserve peer g (g.others peer) with ⟨h, rs, done⟩
  refine ⟨h, rs, done, rfl, ?_⟩
  cases done with
  | false =>
    have hal := alike_undo_lazy undoing_assigned hg.seated.others_nodup
      (hg.vacant_others hpeer) fun _ => trivial
    rw [hr] at hal
    refine .inl ⟨rfl, hg.of_alike hal, ?_⟩
    intro q
    obtain ⟨t, -, hq⟩ := hal.2.2 q
    rw [hq]
  | true =>
    obtain ⟨honly, hrel⟩ := hg.relinking_lazy hpeer hr todo
    refine .inr ⟨rfl, honly, hrel, (honly.member peer).2 hpeer, ?_, ?_⟩
    · intro q
      rw [honly.field Session.acceptsWork]
      exact hwork q
    rw [honly.others]
    exact (lazyReserve_spec hg.seated.others_nodup (hg.vacant_others hpeer) hr).2.1

lemma Coherent.updatePeerRole (hg : Coherent g) (peer : SessionId)
    (hwork : ∀ q, (g.session q).acceptsWork) (isAudience : Bool) :
    let r := g.updatePeerRole peer isAudience .well
    Coherent r.1 ∧ SameWork g r.1 := by
  unfold Graph.updatePeerRole
  split
  · exact ⟨hg, fun _ => rfl⟩
  rename_i hchange
  rw [not_or, not_not] at hchange
  have hpeer : g.Member peer := hchange.1
  -- from the reservations on, both directions are the same
  have hrest : ∀ (h : Graph) (rs : List SlotReservation), OnlySlots g h →
      Ready h peer rs (fun _ => True) → (isAudience → rs = []) →
      let h' := h.modify peer fun s =>
        { s with
          isAudience := isAudience
          media := if isAudience then s.media.silenced else s.media.voiced }
      let g' := (h'.others peer).foldl (Graph.relinkRole peer rs .well) h'
      Coherent g' ∧ SameWork g g' := by
    intro h rs honly hready hrs
    have hf : ∀ s : Session, ∃ a m, { s with
        isAudience := isAudience
        media := if isAudience then s.media.silenced else s.media.voiced } =
          { s with isAudience := a, media := m } := fun s => ⟨_, _, rfl⟩
    have hkeep := sameWork_modify (g := h) hf peer
    have hothers : (h.modify peer _).others peer = h.others peer :=
      filter_congr fun q _ => by rw [hkeep q]
    have hready' : Ready (h.modify peer _) peer rs fun _ => True :=
      ⟨hready.modify hf, (modify_member hf peer peer).2 hready.member,
        fun q => (hkeep q).trans (hready.work q), by rw [hothers]; exact hready.pending⟩
    obtain ⟨hcoherent, hafter⟩ := hready'.coherent_role (by rwa [modify_self])
    refine ⟨hcoherent, fun q => ?_⟩
    exact ((hafter q).trans (hkeep q)).trans (honly.field Session.acceptsWork fun _ _ => rfl)
  cases isAudience with
  | true =>
    exact hrest g [] (.refl g) ⟨hg.relinking peer _, hpeer, hwork, fun _ _ => rfl⟩ fun _ => rfl
  | false =>
    obtain ⟨h, rs, done, hr, hcase⟩ := hg.lazyReserve_cases hpeer hwork fun _ => True
    rw [if_neg Bool.noConfusion, hr]
    rcases hcase with ⟨rfl, hundo⟩ | ⟨rfl, honly, hready⟩
    · exact hundo
    · exact hrest h rs honly hready Bool.noConfusion

lemma Coherent.refreshPeerStreams (hg : Coherent g) (peer : SessionId)
    (hwork : ∀ q, (g.session q).acceptsWork) :
    Coherent (g.refreshPeerStreams peer .well).1 ∧
      SameWork g (g.refreshPeerStreams peer .well).1 := by
  unfold Graph.refreshPeerStreams
  dsimp only
  split
  · exact ⟨hg, fun _ => rfl⟩
  rename_i hin
  rw [not_or, not_not] at hin
  have hpeer : g.Member peer := hin.1
  have hrest : ∀ (h : Graph) (rs : List SlotReservation) (publish : Bool), OnlySlots g h →
      Ready h peer rs (fun _ => False) → (publish = false → rs = []) →
      let g' := ((h.others peer).foldl (Graph.relinkStreams peer publish rs .well) (h, [])).1
      Coherent g' ∧ SameWork g g' := by
    intro h rs publish honly hready hrs
    obtain ⟨hcoherent, hafter⟩ := hready.coherent_streams hrs
    refine ⟨hcoherent, fun q => (hafter q).trans ?_⟩
    exact honly.field Session.acceptsWork fun _ _ => rfl
  cases hpub : (!(g.session peer).isAudience || (g.session peer).media.pttActive) with
  | false =>
    exact hrest g [] false (.refl g) ⟨hg.relinking peer _, hpeer, hwork, fun _ _ => rfl⟩
      fun _ => rfl
  | true =>
    obtain ⟨h, rs, done, hr, hcase⟩ := hg.lazyReserve_cases hpeer hwork fun _ => False
    rw [if_pos rfl, hr]
    rcases hcase with ⟨rfl, hundo⟩ | ⟨rfl, honly, hready⟩
    · exact hundo
    · exact hrest h rs true honly hready Bool.noConfusion

lemma Coherent.setPeerPttActive (hg : Coherent g) (peer : SessionId)
    (hwork : ∀ q, (g.session q).acceptsWork) (active : Bool) :
    let r := g.setPeerPttActive peer active .well
    Coherent r.1 ∧ SameWork g r.1 := by
  unfold Graph.setPeerPttActive
  dsimp only
  split
  swap
  · exact ⟨hg, fun _ => rfl⟩
  set g' := g.modify peer fun s =>
    { s with media := { s.media with
        pttActive := active
        uplinkAudio := { s.media.uplinkAudio with
          active := active && s.media.uplinkAudio.ssrc ≠ 0 } } }
  have hsame : SameWork g g' := fun _ => modify_media_field _ Session.acceptsWork
  obtain ⟨hcoherent, hafter⟩ := (hg.modify_media _ : Coherent g').refreshPeerStreams peer
    fun q => (hsame q).trans (hwork q)
  rcases hr : g'.refreshPeerStreams peer .well with ⟨h, _ | renegotiate⟩
  · rw [hr] at hcoherent hafter
    dsimp only at hcoherent hafter ⊢
    refine ⟨hcoherent.modify_media _, ?_⟩
    intro q
    rw [modify_media_field _ Session.acceptsWork]
    exact (hafter q).trans (hsame q)
  · rw [hr] at hcoherent hafter
    exact ⟨hcoherent, fun q => (hafter q).trans (hsame q)⟩

end

end MezonSfu.RoomGraph
