import MezonSfu.RoomSeats

/-!
Reserving slots for a set of links, and undoing it.

The reservations of a failed operation are retired in the reverse order, so every retirement meets
the table as the reservation left it. What an undone table has in common with the old one is a
parameter: the active slots when the graph is to stay coherent, all but the counters when nothing
is to change.
-/

namespace MezonSfu.RoomGraph

open RemoteSlots Function

/-! ### One reservation -/

/-- `o` has no active slot for `p`. -/
def Graph.Vacant (g : Graph) (o p : SessionId) : Prop :=
  (g.session o).remoteSlots.Vacant (g.session p).userId (g.session p).peerId

section

variable {g : Graph} {o p q : SessionId} {r : ℕ × ℕ}

lemma reserveSlot_fst :
    (g.reserveSlot o p).1 = g.modify o fun s => { s with
      remoteSlots := (remoteSlotReserve (g.session o).remoteSlots (g.session p).userId
        (g.session p).peerId).1 } :=
  rfl

lemma reserveSlot_none (h : (g.reserveSlot o p).2 = none) : (g.reserveSlot o p).1 = g := by
  rw [reserveSlot_fst]
  apply modify_id
  rw [reserve_none h]

lemma reserveSlot_self :
    (g.reserveSlot o p).1.session o = { g.session o with
      remoteSlots := (remoteSlotReserve (g.session o).remoteSlots (g.session p).userId
        (g.session p).peerId).1 } := by
  rw [reserveSlot_fst, modify_self]

lemma reserveSlot_of_ne (h : q ≠ o) : (g.reserveSlot o p).1.session q = g.session q := by
  rw [reserveSlot_fst, modify_of_ne h]

lemma reserveSlot_field {A : Type} (field : Session → A)
    (h : ∀ s t, field { s with remoteSlots := t } = field s := by intros; rfl) :
    field ((g.reserveSlot o p).1.session q) = field (g.session q) := by
  rw [reserveSlot_fst]
  exact modify_field field fun s => h s _

lemma reserveSlot_some (hv : g.Vacant o p) (h : (g.reserveSlot o p).2 = some r) :
    r.1 < maxRemoteSlots ∧ r.2 ≠ 0 ∧ (g.session o).remoteSlots.assigned r.1 = none ∧
      ((g.reserveSlot o p).1.session o).remoteSlots.assigned =
        update (g.session o).remoteSlots.assigned r.1
          (some ((g.session p).userId, (g.session p).peerId, r.2)) := by
  obtain ⟨hlt, hfree, hgen, htable⟩ := reserve_some hv h
  refine ⟨hlt, ?_, ?_, ?_⟩
  · rw [hgen]
    exact nextNonzero_ne_zero _
  · apply assigned_of_not_active
    rw [hfree]
    exact SlotState.noConfusion
  · rw [reserveSlot_self]
    rw [htable, assigned_assign, hgen]

lemma Graph.Vacant.reserveSlot {o' p' : SessionId} (hv' : g.Vacant o' p') (hv : g.Vacant o p)
    (hne : o' ≠ o ∨ (g.session p').peerId ≠ (g.session p).peerId) :
    (g.reserveSlot o p).1.Vacant o' p' := by
  unfold Graph.Vacant
  rw [reserveSlot_field Session.userId, reserveSlot_field Session.peerId]
  by_cases ho : o' = o
  · subst ho
    cases hr : (g.reserveSlot o' p).2 with
    | none =>
      rw [reserveSlot_none hr]
      exact hv'
    | some r =>
      obtain ⟨-, -, -, hassigned⟩ := reserveSlot_some hv hr
      intro i gen
      rw [hassigned]
      by_cases hi : i = r.1
      · rw [hi, update_self]
        intro heq
        simp only [Option.some.injEq, Prod.mk.injEq] at heq
        exact hne.elim (fun h => h rfl) fun h => h heq.2.1.symm
      · rw [update_of_ne hi]
        exact hv' i gen
  · rw [reserveSlot_of_ne ho]
    exact hv'

end

/-- A relation between a table and what is left of it after reservations were undone. `I n`
holds of a table on which `n` more reservations can be undone. -/
structure Undoing (I : ℕ → SlotTable → Prop) (R : SlotTable → SlotTable → Prop) : Prop where
  refl : ∀ t, R t t
  less : ∀ n t, I (n + 1) t → I n t
  keeps : ∀ n t u p r, I (n + 1) t → t.Vacant u p → (remoteSlotReserve t u p).2 = some r →
    I n (remoteSlotReserve t u p).1
  undo : ∀ n t u p r t', I (n + 1) t → t.Vacant u p → (remoteSlotReserve t u p).2 = some r →
    R (remoteSlotReserve t u p).1 t' → R t (remoteSlotRetire t' r.1 r.2).1

/-- The graphs differ in the slot tables only, and these as `R` allows. -/
def Graph.Alike (R : SlotTable → SlotTable → Prop) (g h : Graph) : Prop :=
  h.room = g.room ∧ h.queue = g.queue ∧
    ∀ p, ∃ t, R (g.session p).remoteSlots t ∧ h.session p = { g.session p with remoteSlots := t }

section

variable {I : ℕ → SlotTable → Prop} {R : SlotTable → SlotTable → Prop} (U : Undoing I R)
  {g h : Graph} {o p peer target : SessionId} {n : ℕ} {r : ℕ × ℕ}

include U

lemma alike_refl : g.Alike R g := ⟨rfl, rfl, fun _ => ⟨_, U.refl _, rfl⟩⟩

lemma alike_retireSlot (hI : I (n + 1) (g.session o).remoteSlots) (hv : g.Vacant o p)
    (hr : (g.reserveSlot o p).2 = some r) (hal : (g.reserveSlot o p).1.Alike R h) :
    g.Alike R (h.retireSlot o r.1 r.2) := by
  obtain ⟨hroom, hqueue, hsession⟩ := hal
  refine ⟨hroom, hqueue, ?_⟩
  intro q
  obtain ⟨t, hR, hq⟩ := hsession q
  by_cases ho : q = o
  · subst ho
    rw [reserveSlot_self] at hR hq
    refine ⟨_, U.undo n _ _ _ r t hI hv hr hR, ?_⟩
    unfold Graph.retireSlot
    rw [modify_self, hq]
  · rw [reserveSlot_of_ne ho] at hR hq
    refine ⟨t, hR, ?_⟩
    unfold Graph.retireSlot
    rw [modify_of_ne ho, hq]

lemma budget_reserveSlot (hI : ∀ q, I (n + 1) (g.session q).remoteSlots) (hv : g.Vacant o p)
    (q : SessionId) : I n ((g.reserveSlot o p).1.session q).remoteSlots := by
  by_cases ho : q = o
  · subst ho
    cases hr : (g.reserveSlot q p).2 with
    | none =>
      rw [reserveSlot_none hr]
      exact U.less n _ (hI q)
    | some r =>
      rw [reserveSlot_self]
      exact U.keeps n _ _ _ r (hI q) hv hr
  · rw [reserveSlot_of_ne ho]
    exact U.less n _ (hI q)

end

/-! ### The slots of a new peer -/

/-- The peer and the targets are different sessions with different ids, and have no slots for
each other. -/
structure Linkable (g : Graph) (peer : SessionId) (targets : List SessionId) : Prop where
  nodup : targets.Nodup
  notMem : peer ∉ targets
  ids : ∀ t ∈ targets, ∀ t' ∈ targets, (g.session t).peerId = (g.session t').peerId → t = t'
  target : ∀ t ∈ targets, g.Vacant t peer
  peer : ∀ t ∈ targets, g.Vacant peer t

lemma reserveLink_cases (g : Graph) (peer target : SessionId) :
    ((g.session peer).isAudience ∧ g.reserveLink peer target = g.reservePeerSlot peer target none) ∨
    ((g.session peer).isAudience = false ∧ (g.reserveSlot target peer).2 = none ∧
      g.reserveLink peer target = (g, [], none)) ∨
    ∃ t, (g.session peer).isAudience = false ∧ (g.reserveSlot target peer).2 = some t ∧
      g.reserveLink peer target =
        let r := (g.reserveSlot target peer).1.reservePeerSlot peer target (some t)
        (r.1, ⟨target, t.1, t.2⟩ :: r.2.1, r.2.2) := by
  unfold Graph.reserveLink
  cases ha : (g.session peer).isAudience with
  | true => exact .inl ⟨rfl, rfl⟩
  | false =>
    rw [if_neg Bool.noConfusion]
    cases hr : (g.reserveSlot target peer).2 with
    | none =>
      refine .inr (.inl ⟨rfl, rfl, ?_⟩)
      rw [show g.reserveSlot target peer = (g, none) from Prod.ext (reserveSlot_none hr) hr]
    | some t =>
      refine .inr (.inr ⟨t, rfl, rfl, ?_⟩)
      rw [show g.reserveSlot target peer = ((g.reserveSlot target peer).1, some t) from
        Prod.ext rfl hr]

section

variable {g : Graph} {peer target : SessionId} {targetSlot : Option (ℕ × ℕ)}

lemma reservePeerSlot_eq :
    let r := g.reserveSlot peer target
    g.reservePeerSlot peer target targetSlot = (r.1,
        (r.2.map fun p => ⟨peer, p.1, p.2⟩).toList, r.2.map fun p => ⟨target, targetSlot, p⟩) := by
  unfold Graph.reservePeerSlot
  rcases g.reserveSlot peer target with ⟨g', _ | p⟩ <;> rfl

lemma Linkable.reserveLink {targets : List SessionId} (h : Linkable g peer (target :: targets)) :
    Linkable (g.reserveLink peer target).1 peer targets := by
  obtain ⟨hnd, hnot, hids, htarget, hpeer⟩ := h
  rw [List.nodup_cons] at hnd
  rw [List.mem_cons, not_or] at hnot
  have hne : ∀ t ∈ targets, t ≠ target := fun t ht heq => hnd.1 (heq ▸ ht)
  have hid : ∀ t ∈ targets, (g.session t).peerId ≠ (g.session target).peerId := by
    intro t ht heq
    exact hne t ht (hids t (.tail _ ht) target (.head _) heq)
  have hvt := htarget target (.head _)
  have hvp := hpeer target (.head _)
  -- the peer's own reservation, on a graph with the same ids
  have hown : ∀ g' : Graph, (∀ q, (g'.session q).peerId = (g.session q).peerId) →
      g'.Vacant peer target → (∀ t ∈ targets, g'.Vacant t peer) →
      (∀ t ∈ targets, g'.Vacant peer t) →
      Linkable (g'.reserveSlot peer target).1 peer targets := by
    intro g' hsame hv h1 h2
    refine ⟨hnd.2, hnot.2, ?_, ?_, ?_⟩
    · intro t ht t' ht' heq
      rw [reserveSlot_field Session.peerId, reserveSlot_field Session.peerId, hsame, hsame] at heq
      exact hids t (.tail _ ht) t' (.tail _ ht') heq
    · intro t ht
      exact (h1 t ht).reserveSlot hv (.inl fun heq => hnot.2 (heq ▸ ht))
    · intro t ht
      exact (h2 t ht).reserveSlot hv (.inr (by rw [hsame, hsame]; exact hid t ht))
  rcases reserveLink_cases g peer target with ⟨-, heq⟩ | ⟨-, -, heq⟩ | ⟨t, -, -, heq⟩
  · rw [heq, reservePeerSlot_eq]
    exact hown g (fun _ => rfl) hvp (fun t ht => htarget t (.tail _ ht))
      (fun t ht => hpeer t (.tail _ ht))
  · rw [heq]
    exact ⟨hnd.2, hnot.2, fun t ht t' ht' => hids t (.tail _ ht) t' (.tail _ ht'),
      fun t ht => htarget t (.tail _ ht), fun t ht => hpeer t (.tail _ ht)⟩
  · rw [heq, reservePeerSlot_eq]
    apply hown
    · exact fun _ => reserveSlot_field Session.peerId
    · exact hvp.reserveSlot hvt (.inl hnot.1)
    · intro s hs
      exact (htarget s (.tail _ hs)).reserveSlot hvt (.inl (hne s hs))
    · intro s hs
      exact (hpeer s (.tail _ hs)).reserveSlot hvt (.inl hnot.1)

variable {I : ℕ → SlotTable → Prop} {R : SlotTable → SlotTable → Prop} (U : Undoing I R)
  {h : Graph} {n : ℕ}

include U

lemma alike_undo_peerSlot (hI : I (n + 1) (g.session peer).remoteSlots) (hv : g.Vacant peer target)
    (hal : (g.reservePeerSlot peer target targetSlot).1.Alike R h) :
    g.Alike R (h.undo (g.reservePeerSlot peer target targetSlot).2.1) := by
  rw [reservePeerSlot_eq] at hal ⊢
  cases hr : (g.reserveSlot peer target).2 with
  | none =>
    rw [reserveSlot_none hr] at hal
    exact hal
  | some p => exact alike_retireSlot U hI hv hr hal

lemma alike_undo_link (hI : ∀ q, I (n + 1) (g.session q).remoteSlots) (hne : peer ≠ target)
    (hvt : g.Vacant target peer) (hvp : g.Vacant peer target)
    (hal : (g.reserveLink peer target).1.Alike R h) :
    g.Alike R (h.undo (g.reserveLink peer target).2.1) := by
  rcases reserveLink_cases g peer target with ⟨-, heq⟩ | ⟨-, -, heq⟩ | ⟨t, -, hr, heq⟩
  · rw [heq] at hal ⊢
    exact alike_undo_peerSlot U (hI peer) hvp hal
  · rw [heq] at hal ⊢
    exact hal
  · rw [heq] at hal ⊢
    have hI' : I (n + 1) ((g.reserveSlot target peer).1.session peer).remoteSlots := by
      rw [reserveSlot_of_ne hne]
      exact hI peer
    have hmid := alike_undo_peerSlot U hI' (hvp.reserveSlot hvt (.inl hne)) hal
    exact alike_retireSlot U (hI target) hvt hr hmid

lemma budget_reserveLink (hI : ∀ q, I (n + 1) (g.session q).remoteSlots) (hne : peer ≠ target)
    (hvt : g.Vacant target peer) (hvp : g.Vacant peer target) (q : SessionId) :
    I n ((g.reserveLink peer target).1.session q).remoteSlots := by
  rcases reserveLink_cases g peer target with ⟨-, heq⟩ | ⟨-, -, heq⟩ | ⟨t, -, -, heq⟩
  · rw [heq, reservePeerSlot_eq]
    exact budget_reserveSlot U hI hvp q
  · rw [heq]
    exact U.less n _ (hI q)
  · rw [heq, reservePeerSlot_eq]
    have hv := hvp.reserveSlot hvt (.inl hne)
    by_cases hq : q = peer
    · -- the peer's table is as it was before the link
      subst hq
      have hsame : (g.reserveSlot target q).1.session q = g.session q := reserveSlot_of_ne hne
      cases hr : ((g.reserveSlot target q).1.reserveSlot q target).2 with
      | none =>
        rw [reserveSlot_none hr, hsame]
        exact U.less n _ (hI q)
      | some r =>
        rw [reserveSlot_self]
        apply U.keeps n _ _ _ r _ hv hr
        rw [hsame]
        exact hI q
    · rw [reserveSlot_of_ne hq]
      exact budget_reserveSlot U hI hvt q

lemma alike_undo_links {targets : List SessionId} (hl : Linkable g peer targets)
    (hI : ∀ q, I targets.length (g.session q).remoteSlots) :
    g.Alike R ((Graph.reserveLinks peer g targets).1.undo
      (Graph.reserveLinks peer g targets).2.1) := by
  induction targets generalizing g with
  | nil => exact alike_refl U
  | cons target targets ih =>
    have hne : peer ≠ target := fun heq => hl.notMem (heq ▸ .head _)
    have hvt := hl.target target (.head _)
    have hvp := hl.peer target (.head _)
    unfold Graph.reserveLinks
    have hlink := alike_undo_link U hI hne hvt hvp (h := (g.reserveLink peer target).1)
      (alike_refl U)
    have hrest := ih hl.reserveLink (budget_reserveLink U hI hne hvt hvp)
    have hwhole := alike_undo_link U hI hne hvt hvp hrest
    rcases hr : g.reserveLink peer target with ⟨g', rs, _ | link⟩
    · rw [hr] at hlink
      exact hlink
    · rw [hr] at hwhole
      unfold Graph.undo at hwhole ⊢
      rw [List.foldr_append]
      exact hwhole

end

section

variable {g : Graph} {peer : SessionId} {I : ℕ → SlotTable → Prop}
  {R : SlotTable → SlotTable → Prop} (U : Undoing I R)

include U

lemma alike_undo_lazy {others : List SessionId} (hnd : others.Nodup)
    (hv : ∀ o ∈ others, snapshotFind (g.session o).receivers peer = none → g.Vacant o peer)
    (hI : ∀ q, I others.length (g.session q).remoteSlots) :
    g.Alike R ((Graph.lazyReserve peer g others).1.undo (Graph.lazyReserve peer g others).2.1) := by
  induction others generalizing g with
  | nil => exact alike_refl U
  | cons other others ih =>
    rw [List.nodup_cons] at hnd
    unfold Graph.lazyReserve
    split
    · exact ih hnd.2 (fun o ho => hv o (.tail _ ho)) (fun q => U.less _ _ (hI q))
    rename_i hnone
    have hvo := hv other (.head _) (by simpa using hnone)
    cases hr : (g.reserveSlot other peer).2 with
    | none =>
      have hpair : g.reserveSlot other peer = (g, none) := Prod.ext (reserveSlot_none hr) hr
      rw [hpair]
      exact alike_refl U
    | some r =>
      have hpair : g.reserveSlot other peer = ((g.reserveSlot other peer).1, some r) :=
        Prod.ext rfl hr
      rw [hpair]
      apply alike_retireSlot U (hI other) hvo hr
      apply ih hnd.2
      · intro o ho hfind
        have hne : o ≠ other := fun heq => hnd.1 (heq ▸ ho)
        rw [reserveSlot_of_ne hne] at hfind
        exact (hv o (.tail _ ho) hfind).reserveSlot hvo (.inl hne)
      · exact budget_reserveSlot U hI hvo

end

end MezonSfu.RoomGraph
