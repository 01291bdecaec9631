import MezonSfu.RoutingAnswers

/-!
When two-phase publication keeps its promises.

The invariant ties the numbers of the entries to the map of the table: the generations committed
for an entry are at most its own, a valid answer has been committed, and a reservation's
generation is above everything committed for its entry before it was prepared.
-/

namespace MezonSfu.Routing

open Function List Option

variable {U A : Type*} [DecidableEq U] {hash : U → ℕ} {slots maxMappings : ℕ}

lemma Inv.mapping_eq {w : World U A} (h : Inv hash slots maxMappings w) (u : U) :
    w.mapping u = (w.table.entryOf hash slots u).map fun e => (e.room, e.fd) := by
  ext p
  rw [h.maps u p, map_eq_some_iff]
  simp only [h.sound.indexed.entryOf_iff, and_assoc]

namespace Answers

variable {s : Answers U A}

/-- What the history says about the table and the reservations. -/
structure Kept (hash : U → ℕ) (slots maxMappings : ℕ) (s : Answers U A) : Prop where
  inv : Inv hash slots maxMappings s.world
  born : ∀ u, (s.births u).isSome = true ↔ (s.world.mapping u).isSome = true
  births_lt : ∀ u b, s.births u = some b → b.1 < s.created
  births_inj : ∀ u u' b b', s.births u = some b → s.births u' = some b' → b.1 = b'.1 → u = u'
  commits_lt : ∀ c ∈ s.commits, c.1 < s.created
  commitsAt_le : ∀ id, s.commitsAt id ≤ s.commits.length
  entry : ∀ u e b, s.world.table.entryOf hash slots u = some e → s.births u = some b →
    (∀ c ∈ s.commits, c.1 = b.1 → c.2 ≤ e.pendingAnswer.generation) ∧
      (e.pendingAnswer.valid = true → ∃ c ∈ s.commits, c.1 = b.1)
  reserved : ∀ id r b, s.world.reservations id = some r → r.active = true →
    s.births r.ufrag = some b →
    ∀ c ∈ s.commits.take (s.commitsAt id), c.1 = b.1 → c.2 < r.generation
  owner : ∀ u b, s.births u = some b → (∃ c ∈ s.commits, c.1 = b.1) ∨
    ∃ r, s.world.reservations b.2 = some r ∧ r.active = true ∧ r.newEntry = true ∧ r.ufrag = u ∧
      s.world.mapping u = some (r.room, r.fd)
  increasing : s.commits.Pairwise fun c c' => c.1 = c'.1 → c.2 < c'.2
  commit_iff : ∀ a ∈ s.attempts, a.1 = a.2

lemma Kept.published (h : Kept hash slots maxMappings s) : Published hash slots s := by
  refine ⟨h.increasing, h.commit_iff, ?_⟩
  intro u e he
  have hmap : (s.world.mapping u).isSome = true := by
    rw [h.inv.mapping_eq, he]
    rfl
  obtain ⟨b, hb⟩ := isSome_iff_exists.1 ((h.born u).2 hmap)
  refine ⟨b, hb, ?_⟩
  rcases h.owner u b hb with hc | ⟨r, hr, ha, hn, hu, -⟩
  · exact .inl hc
  · exact .inr ⟨r, hr, ha, hn, hu⟩

lemma kept_init : Kept hash slots maxMappings (init : Answers U A) :=
  ⟨inv_init, fun _ => ⟨nofun, nofun⟩, nofun, nofun, nofun, fun _ => le_rfl, fun _ _ _ _ => nofun,
    fun _ _ _ _ => nofun, nofun, .nil, nofun⟩

/-- A world in which entries only went or grew older, and reservations were only closed. -/
structure Ages (hash : U → ℕ) (slots : ℕ) (s : Answers U A) (w : World U A) : Prop where
  mapping : ∀ u p, w.mapping u = some p → s.world.mapping u = some p
  entry : ∀ u e', w.table.entryOf hash slots u = some e' →
    ∃ e, s.world.table.entryOf hash slots u = some e ∧
      e.pendingAnswer.generation ≤ e'.pendingAnswer.generation ∧
      (e'.pendingAnswer.valid = true → e.pendingAnswer.valid = true)
  active : ∀ id r, w.reservations id = some r → r.active = true → s.world.reservations id = some r
  owner : ∀ u b r, s.births u = some b → (w.mapping u).isSome = true →
    s.world.reservations b.2 = some r → r.active = true → r.newEntry = true → r.ufrag = u →
    s.world.mapping u = some (r.room, r.fd) →
    (∃ c ∈ s.commits, c.1 = b.1) ∨ w.reservations b.2 = some r

variable {w : World U A} {u : U} {id : ℕ} {r : Reservation U A} {b : ℕ × ℕ}

lemma Kept.ages (h : Kept hash slots maxMappings s) (hages : Ages hash slots s w)
    (hinv : Inv hash slots maxMappings w) {births : U → Option (ℕ × ℕ)}
    (hb : ∀ u b, births u = some b → s.births u = some b)
    (hborn : ∀ u, (births u).isSome ↔ (w.mapping u).isSome) :
    Kept hash slots maxMappings { s with world := w, births := births } := by
  refine ⟨hinv, hborn, fun u b hu => h.births_lt u b (hb u b hu),
    fun u u' b b' hu hu' => h.births_inj u u' b b' (hb u b hu) (hb u' b' hu'), h.commits_lt,
    h.commitsAt_le, ?_, ?_, ?_, h.increasing, h.commit_iff⟩
  · intro u e' b he' hu
    obtain ⟨e, he, hle, hvalid⟩ := hages.entry u e' he'
    obtain ⟨hc, hv⟩ := h.entry u e b he (hb u b hu)
    exact ⟨fun c hc' hcb => (hc c hc' hcb).trans hle, fun hv' => hv (hvalid hv')⟩
  · intro id r b hr ha hu
    exact h.reserved id r b (hages.active id r hr ha) ha (hb _ b hu)
  · intro u b hu
    have hmap : (w.mapping u).isSome := (hborn u).1 (by dsimp only at hu; rw [hu]; rfl)
    rcases h.owner u b (hb u b hu) with hc | ⟨r, hr, ha, hn, hru, hm⟩
    · exact .inl hc
    rcases hages.owner u b r (hb u b hu) hmap hr ha hn hru hm with hc | hr'
    · exact .inl hc
    · obtain ⟨p, hp⟩ := isSome_iff_exists.1 hmap
      refine .inr ⟨r, hr', ha, hn, hru, ?_⟩
      rw [← hm, hages.mapping u p hp]
      exact hp

lemma Kept.remaining (h : Kept hash slots maxMappings s) (hages : Ages hash slots s w)
    (hinv : Inv hash slots maxMappings w) :
    Kept hash slots maxMappings { s with world := w, births := s.remaining w } := by
  refine h.ages hages hinv ?_ ?_
  · intro u b hu
    unfold Answers.remaining at hu
    split at hu
    · exact hu
    · cases hu
  · intro u
    unfold Answers.remaining
    split
    · rename_i hm
      obtain ⟨p, hp⟩ := isSome_iff_exists.1 hm
      rw [h.born u, hages.mapping u p hp, hp]
    · rename_i hm
      exact ⟨nofun, fun hm' => absurd hm' hm⟩

lemma ages_of_entries (hr : w.reservations = s.world.reservations)
    (hm : w.mapping = s.world.mapping) (hentry : ∀ u e', w.table.entryOf hash slots u = some e' →
      ∃ e, s.world.table.entryOf hash slots u = some e ∧
        e.pendingAnswer.generation ≤ e'.pendingAnswer.generation ∧
        (e'.pendingAnswer.valid → e.pendingAnswer.valid)) : Ages hash slots s w := by
  refine ⟨fun u p hp => by rwa [hm] at hp, hentry, fun id r hr' _ => by rwa [hr] at hr', ?_⟩
  intro u b r _ _ hres _ _ _ _
  rw [hr]
  exact .inr hres

lemma Kept.modify (h : Kept hash slots maxMappings s) {i : ℕ} {f : Entry U A → Entry U A}
    (hfind : s.world.table.findEntry hash slots u = some i) (hf : ∀ e, (f e).ufrag = e.ufrag)
    (hgen : ∀ e, s.world.table.entryOf hash slots u = some e →
      e.pendingAnswer.generation ≤ (f e).pendingAnswer.generation ∧
      ((f e).pendingAnswer.valid → e.pendingAnswer.valid)) :
    Ages hash slots s { s.world with table := s.world.table.modifyEntry i f } := by
  refine ages_of_entries rfl rfl ?_
  intro u' e' he'
  rw [h.inv.sound.indexed.entryOf_modify hfind hf] at he'
  split at he'
  · rename_i hu
    subst hu
    obtain ⟨e, he, rfl⟩ := map_eq_some_iff.1 he'
    exact ⟨e, he, hgen e he⟩
  · exact ⟨e', he', le_rfl, id⟩

lemma ages_refl : Ages hash slots s s.world :=
  ages_of_entries rfl rfl fun _ e' he' => ⟨e', he', le_rfl, id⟩

lemma nextGeneration_eq {g : ℕ} (h : g + 1 < 2 ^ 32) : nextGeneration g = g + 1 := by
  unfold nextGeneration
  rw [Nat.mod_eq_of_lt h, if_neg (Nat.succ_ne_zero g)]

/-! ### Calls that change or remove entries -/

section

variable (h : Kept hash slots maxMappings s)

include h

lemma Kept.invalidatePending {room fd : ℕ}
    (hgen : ∀ e ∈ s.world.table.entryOf hash slots u, e.pendingAnswer.generation + 1 < 2 ^ 32) :
    Ages hash slots s
      { s.world with table := (s.world.table.invalidatePending hash slots u room fd).1 } := by
  unfold Table.invalidatePending
  cases hfind : s.world.table.findEntry hash slots u with
  | none => exact ages_refl
  | some i =>
    dsimp only
    split
    · refine h.modify hfind (fun _ => rfl) fun e he => ⟨?_, nofun⟩
      change e.pendingAnswer.generation ≤ nextGeneration e.pendingAnswer.generation
      rw [nextGeneration_eq (hgen e he)]
      exact Nat.le_succ _
    · exact ages_refl

lemma Kept.lookupRoute (u : U) (workerIndex : ℕ) :
    Ages hash slots s
      { s.world with table := (s.world.table.lookupRoute hash slots u workerIndex).1 } := by
  unfold Table.lookupRoute
  cases hfind : s.world.table.findEntry hash slots u with
  | none => exact ages_refl
  | some i => exact h.modify hfind (fun _ => rfl) fun e _ => ⟨le_rfl, id⟩

lemma Kept.reconcileAnswer (u : U) (room fd generation : ℕ) :
    Kept hash slots maxMappings { s with world := { s.world with
      table := s.world.table.reconcileAnswer hash slots u room fd generation } } := by
  have hages : Ages hash slots s { s.world with
      table := s.world.table.reconcileAnswer hash slots u room fd generation } ∧
      Inv hash slots maxMappings { s.world with
        table := s.world.table.reconcileAnswer hash slots u room fd generation } := by
    unfold Table.reconcileAnswer
    cases hfind : s.world.table.findEntry hash slots u with
    | none => exact ⟨ages_refl, h.inv⟩
    | some i =>
      dsimp only
      split
      · exact ⟨h.modify hfind (fun _ => rfl) fun e _ => ⟨le_rfl, nofun⟩,
          h.inv.modifyEntry hfind _ fun _ => ⟨rfl, rfl, rfl⟩⟩
      · exact ⟨ages_refl, h.inv⟩
  exact h.ages hages.1 hages.2 (fun _ _ hu => hu) h.born

lemma Kept.unregisterFd (hmax : maxMappings ≤ slots)
    (fd : ℕ) : Ages hash slots s (s.world.unregisterFd hash slots fd) := by
  obtain ⟨hsound, hstored⟩ := h.inv.sound.unregisterFd hmax fd
  have hentry := h.inv.sound.indexed.entryOf_filter hsound.indexed (p := fun e => e.fd ≠ fd)
    (by simpa using hstored)
  refine ⟨?_, ?_, fun _ _ hr _ => hr, fun _ _ _ _ _ hr _ _ _ _ => .inr hr⟩
  · intro u p hp
    exact (filter_eq_some_iff.1 hp).1
  · intro u e' he'
    change (s.world.table.unregisterFd hash slots fd).entryOf hash slots u = some e' at he'
    rw [hentry, filter_eq_some_iff] at he'
    exact ⟨e', he'.1, le_rfl, id⟩

end

lemma ages_close (hr : s.world.reservations id = some r)
    (hclose : w.reservations = s.world.close id r)
    (hmap : ∀ u p, w.mapping u = some p → s.world.mapping u = some p)
    (hentry : ∀ u e, w.table.entryOf hash slots u = some e →
      s.world.table.entryOf hash slots u = some e)
    (hown : ∀ b, s.births r.ufrag = some b → b.2 = id → (w.mapping r.ufrag).isSome →
      r.newEntry → s.world.mapping r.ufrag = some (r.room, r.fd) →
      ∃ c ∈ s.commits, c.1 = b.1) : Ages hash slots s w := by
  unfold World.close at hclose
  refine ⟨hmap, fun u e he => ⟨e, hentry u e he, le_rfl, fun hv => hv⟩, ?_, ?_⟩
  · intro id' r' hr' ha
    rw [hclose] at hr'
    obtain ⟨-, ⟨⟩⟩ | ⟨-, hr'⟩ := update_cases hr'
    · cases ha
    · exact hr'
  · intro u b r' hb hm hr' ha hn hu hmu
    by_cases hid : b.2 = id
    · rw [hid, hr, Option.some.injEq] at hr'
      subst hr' hu
      exact .inl (hown b hb hid hm hn hmu)
    · rw [hclose, update_of_ne hid]
      exact .inr hr'

variable (h : Kept hash slots maxMappings s)

include h

/-- The entry of a ufrag that the mapping gives to a reservation's owner is the reservation's. -/
lemma Kept.owned_of_mapping (hm : s.world.mapping r.ufrag = some (r.room, r.fd)) :
    ∃ e, s.world.table.entryOf hash slots r.ufrag = some e ∧
      s.world.table.owned hash slots r = some e := by
  rw [h.inv.mapping_eq] at hm
  obtain ⟨e, he, hp⟩ := map_eq_some_iff.1 hm
  rw [Prod.mk.injEq] at hp
  refine ⟨e, he, ?_⟩
  unfold Table.owned
  rw [he, filter_some, if_pos (decide_eq_true hp)]

lemma Kept.cancelAnswer (hmax : maxMappings ≤ slots)
    (hc : ∀ r ∈ (s.world.reservations id).filter Reservation.active,
      s.world.table.inPlace hash slots r) :
    Ages hash slots s (s.world.cancelAnswer hash slots id) := by
  unfold World.cancelAnswer
  cases hfilter : (s.world.reservations id).filter Reservation.active with
  | none => exact ages_refl
  | some r =>
    have hplace := hc r hfilter
    have hr := (filter_eq_some_iff.1 hfilter).1
    dsimp only
    unfold Table.cancelAnswer
    rw [Table.reserved_eq hplace]
    split
    · rename_i hremove
      obtain ⟨e, hown, hvalid⟩ := (any_eq_true _ _).1 hremove.2
      have hres : s.world.table.reserved hash slots r = some e := by
        rw [Table.reserved_eq hplace, hown]
      obtain ⟨hi, he, hu, -, -⟩ := reserved_spec h.inv.sound hres
      have hrem := Table.removeEntryAt_spec h.inv.sound.indexed hi he
      have hcount := hrem.count
      have hle := h.inv.sound.le
      have hsound : Sound hash slots maxMappings
          (s.world.table.removeEntryAt hash slots r.entryIndex) :=
        ⟨hrem.indexed, by omega, hrem.aborted.trans h.inv.sound.aborted,
          hrem.rebuildFailed.trans h.inv.sound.rebuildFailed⟩
      obtain ⟨t', heq, hsound', hstored⟩ := hsound.tidy hmax
      have hentry := h.inv.sound.indexed.entryOf_filter hsound'.indexed
        (p := fun f => f.ufrag ≠ e.ufrag) (by
          intro f
          rw [hstored, hrem.stored, decide_eq_true_eq])
      rw [heq]
      refine ages_close hr rfl ?_ ?_ ?_
      · intro u p hp
        dsimp only at hp
        rw [if_pos rfl] at hp
        exact ((update_cases hp).resolve_left nofun).2
      · intro u f hf
        rw [hentry] at hf
        exact (filter_eq_some_iff.1 hf).1
      · intro b _ _ hm
        dsimp only at hm
        rw [if_pos rfl, update_self] at hm
        cases hm
    · rename_i hkeep
      refine ages_close hr rfl (fun u p hp => hp) (fun u f hf => hf) ?_
      -- the entry stays only when it has a valid answer
      intro b hb _ _ hnew hm
      obtain ⟨e, he, hown⟩ := h.owned_of_mapping hm
      have hvalid : e.pendingAnswer.valid := by
        by_contra hinvalid
        refine hkeep ⟨hnew, ?_⟩
        rw [hown, any_some]
        simpa using hinvalid
      exact (h.entry r.ufrag e b he hb).2 hvalid

/-- The generation of a reservation is above everything committed for its entry. -/
lemma Kept.generation_gt (hr : s.world.reservations id = some r) (ha : r.active)
    (hb : s.births r.ufrag = some b) (hnone : ∀ c ∈ s.commits.drop (s.commitsAt id), c.1 ≠ b.1) :
    ∀ c ∈ s.commits, c.1 = b.1 → c.2 < r.generation := by
  rw [← take_append_drop (s.commitsAt id) s.commits]
  exact forall_mem_append.2 ⟨h.reserved id r b hr ha hb, fun c hc hcb => absurd hcb (hnone c hc)⟩

lemma Kept.commit_owned {e : Entry U A}
    (hr : s.world.reservations id = some r) (ha : r.active)
    (hres : s.world.table.reserved hash slots r = some e)
    (hinv : Inv hash slots maxMappings (s.world.commitAnswer hash slots id))
    (hworld : s.world.commitAnswer hash slots id =
      { s.world with
        table := (s.world.table.commitAnswer hash slots r).1
        reservations := s.world.close id r }) (hb : s.births r.ufrag = some b)
    (hnone : ∀ c ∈ s.commits.drop (s.commitsAt id), c.1 ≠ b.1) :
    Kept hash slots maxMappings { s with
      world := s.world.commitAnswer hash slots id
      commits := s.commits ++ [(b.1, r.generation)]
      attempts := s.attempts ++ [(true, true)] } := by
  obtain ⟨hi, he, hu, -, -⟩ := reserved_spec h.inv.sound hres
  have hgt := h.generation_gt hr ha hb hnone
  have htable : (s.world.table.commitAnswer hash slots r).1 =
      { s.world.table with
        entries := update s.world.table.entries r.entryIndex (some
          { e with room := r.room, fd := r.fd, pendingAnswer := Table.published e r }) } := by
    unfold Table.commitAnswer
    rw [hres]
  have hsame : ({ e with
      room := r.room, fd := r.fd, pendingAnswer := Table.published e r } : Entry U A).ufrag =
      e.ufrag := rfl
  have hentry := h.inv.sound.indexed.entryOf_update hi he hsame
  have hclosed : ∀ id' r', (s.world.commitAnswer hash slots id).reservations id' = some r' →
      r'.active → id' ≠ id ∧ s.world.reservations id' = some r' := by
    intro id' r' hr' ha'
    rw [hworld] at hr'
    obtain ⟨hid, ⟨⟩⟩ | ⟨hid, hr'⟩ := update_cases hr'
    · cases ha'
    · exact ⟨hid, hr'⟩
  refine ⟨hinv, ?_, h.births_lt, h.births_inj, ?_, ?_, ?_, ?_, ?_, ?_, ?_⟩
  · rw [hworld]
    exact h.born
  · exact forall_mem_append.2 ⟨h.commits_lt, forall_mem_singleton.2 (h.births_lt r.ufrag b hb)⟩
  · intro id'
    rw [length_append]
    exact (h.commitsAt_le id').trans (Nat.le_add_right _ _)
  · intro u f b' hf hb'
    dsimp only at hf hb' ⊢
    rw [hworld] at hf
    dsimp only at hf
    rw [htable, hentry] at hf
    split at hf
    · rename_i hue
      rw [hue, hu, hb, Option.some.injEq] at hb'
      subst hb'
      cases hf
      refine ⟨?_, fun _ => ⟨_, mem_append_right _ (.head _), rfl⟩⟩
      exact forall_mem_append.2 ⟨fun c hc hcb => (hgt c hc hcb).le,
        forall_mem_singleton.2 fun _ => le_rfl⟩
    · rename_i hue
      obtain ⟨hle, hvalid⟩ := h.entry u f b' hf hb'
      constructor
      · refine forall_mem_append.2 ⟨hle, forall_mem_singleton.2 fun hcb => ?_⟩
        exact absurd (h.births_inj u r.ufrag b' b hb' hb hcb.symm) (by rw [← hu]; exact hue)
      · intro hv
        obtain ⟨c, hc, hcb⟩ := hvalid hv
        exact ⟨c, mem_append_left _ hc, hcb⟩
  · intro id' r' b' hr' ha' hb' c hc
    obtain ⟨-, hold⟩ := hclosed id' r' hr' ha'
    dsimp only at hc
    rw [take_append_of_le_length (h.commitsAt_le id')] at hc
    exact h.reserved id' r' b' hold ha' hb' c hc
  · intro u b' hb'
    rcases h.owner u b' hb' with ⟨c, hc, hcb⟩ | ⟨r', hr', ha', hn', hu', hm'⟩
    · exact .inl ⟨c, mem_append_left _ hc, hcb⟩
    by_cases hid : b'.2 = id
    · rw [hid, hr, Option.some.injEq] at hr'
      subst hr' hu'
      rw [hb, Option.some.injEq] at hb'
      subst hb'
      exact .inl ⟨_, mem_append_right _ (.head _), rfl⟩
    · refine .inr ⟨r', ?_, ha', hn', hu', ?_⟩
      · rw [hworld]
        exact (update_of_ne hid ..).trans hr'
      · rw [hworld]
        exact hm'
  · refine pairwise_append.2 ⟨h.increasing, pairwise_singleton _ _, ?_⟩
    intro c hc c' hc'
    rw [mem_singleton.1 hc']
    exact hgt c hc
  · exact forall_mem_append.2 ⟨h.commit_iff, forall_mem_singleton.2 rfl⟩

lemma Kept.attempt {x : Bool × Bool} (hx : x.1 = x.2) :
    Kept hash slots maxMappings { s with attempts := s.attempts ++ [x] } := by
  exact { h with commit_iff := forall_mem_append.2 ⟨h.commit_iff, forall_mem_singleton.2 hx⟩ }

lemma Kept.commitAnswer (hc : ∀ r ∈ (s.world.reservations id).filter Reservation.active,
      s.world.table.inPlace hash slots r ∧
        ∀ b ∈ s.births r.ufrag, ∀ c ∈ s.commits.drop (s.commitsAt id), c.1 ≠ b.1) :
    Kept hash slots maxMappings (s.commitAnswer hash slots maxMappings id) := by
  have hstep : Routing.step hash slots maxMappings s.world (.commitAnswer id) =
      s.world.commitAnswer hash slots id := by
    unfold Routing.step
    rw [h.inv.sound.aborted, if_neg Bool.false_ne_true]
  have hinv := h.inv.commitAnswer id
  unfold Answers.commitAnswer
  cases hfilter : (s.world.reservations id).filter Reservation.active with
  | none => exact h
  | some r =>
    obtain ⟨hplace, hnone⟩ := hc r hfilter
    obtain ⟨hr, ha⟩ := filter_eq_some_iff.1 hfilter
    have hworld : s.world.commitAnswer hash slots id =
        { s.world with
          table := (s.world.table.commitAnswer hash slots r).1
          reservations := s.world.close id r } := by
      unfold World.commitAnswer
      rw [hfilter]
    dsimp only
    rw [hstep, Table.commitAnswer_snd, Table.reserved_eq hplace]
    cases hown : s.world.table.owned hash slots r with
    | none =>
      have htable : (s.world.table.commitAnswer hash slots r).1 = s.world.table := by
        unfold Table.commitAnswer
        rw [Table.reserved_eq hplace, hown]
      have hages : Ages hash slots s (s.world.commitAnswer hash slots id) := by
        rw [hworld, htable]
        refine ages_close hr rfl (fun _ _ hp => hp) (fun _ _ hf => hf) ?_
        intro b _ _ _ _ hm
        obtain ⟨e, -, hown'⟩ := h.owned_of_mapping hm
        rw [hown] at hown'
        cases hown'
      have hkept := h.ages hages hinv (fun _ _ hu => hu) (by
        rw [hworld]
        exact h.born)
      exact hkept.attempt rfl
    | some e =>
      have hres : s.world.table.reserved hash slots r = some e := by
        rw [Table.reserved_eq hplace, hown]
      have hmap : (s.world.mapping r.ufrag).isSome := by
        rw [h.inv.mapping_eq]
        rw [(filter_eq_some_iff.1 hown).1]
        rfl
      obtain ⟨b, hb⟩ := isSome_iff_exists.1 ((h.born r.ufrag).2 hmap)
      rw [isSome_some, if_pos rfl, hb]
      exact h.commit_owned hr ha hres hinv hworld hb (hnone b hb)

end Answers

/-- What a preparation returns: nothing, a reservation for the entry that is there, or one for a new
entry. -/
inductive Prepared (hash : U → ℕ) (slots : ℕ) (t : Table U A) (client : Option U) (room fd : ℕ) :
    Table U A × RegisterResult × Option (Reservation U A) → Prop
  | refused {result} : Prepared hash slots t client room fd (t, result, none)
  | known {u e x} (hclient : client = some u) (he : t.entryOf hash slots u = some e)
      (hu : x.ufrag = u) (hn : x.newEntry = false)
      (hg : x.generation = nextGeneration e.pendingAnswer.generation) :
      Prepared hash slots t client room fd (t, .ok, some x)
  | new {u x t'} (hnew : ∀ e, t.Stored e → e.ufrag ≠ u)
      (happ : t.Appended hash slots t' (.new u room fd)) (hu : x.ufrag = u)
      (hn : x.newEntry = true) (hroom : x.room = room) (hfd : x.fd = fd) (ha : x.active = true) :
      Prepared hash slots t client room fd (t', .ok, some x)

lemma prepareAnswer_prepared {t : Table U A} (h : Sound hash slots maxMappings t)
    (hmax : maxMappings ≤ slots) (client : Option U) (room fd : ℕ) (answer : PendingAnswer A) :
    Prepared hash slots t client room fd
      (t.prepareAnswer hash slots maxMappings client room fd answer) := by
  unfold Table.prepareAnswer
  cases client with
  | none => exact .refused
  | some u =>
    dsimp only
    cases hfind : t.findEntry hash slots u with
    | some i =>
      dsimp only
      split
      · obtain ⟨hi, e, he, hu⟩ := h.indexed.findEntry_iff.1 hfind
        refine .known rfl (h.indexed.entryOf_iff.2 ⟨⟨i, hi, he⟩, hu⟩) rfl rfl ?_
        unfold Table.reserve
        rw [he]
        rfl
      · exact .refused
    | none =>
      have hnew := h.indexed.findEntry_none.1 hfind
      by_cases hfull : maxMappings ≤ t.count
      · rw [appendEntry_of_full hfull]
        exact .refused
      · obtain ⟨t', heq, happ⟩ := Table.appendEntry_spec h.indexed hmax (by omega) hnew room fd
        rw [heq]
        exact .new hnew happ rfl rfl rfl rfl rfl

namespace Answers

variable {s : Answers U A}

variable {x : Reservation U A} {fd id room : ℕ}

section

variable (h : Kept hash slots maxMappings s)

include h

lemma Kept.prepare_known {e : Entry U A}
    (hidle : ∀ r, s.world.reservations id = some r → r.active = false)
    (he : s.world.table.entryOf hash slots x.ufrag = some e)
    (hg : x.generation = e.pendingAnswer.generation + 1) (hinv : Inv hash slots maxMappings
      { s.world with reservations := update s.world.reservations id (some x) }) :
    Kept hash slots maxMappings { s with
      world := { s.world with reservations := update s.world.reservations id (some x) }
      commitsAt := update s.commitsAt id s.commits.length } := by
  refine { h with inv := hinv, commitsAt_le := ?_, reserved := ?_, owner := ?_ }
  · intro id'
    dsimp only
    by_cases hid : id' = id
    · rw [hid, update_self]
    · rw [update_of_ne hid]
      exact h.commitsAt_le id'
  · intro id' r b hr ha hb c hc hcb
    dsimp only at hr hb hc
    by_cases hid : id' = id
    · rw [hid, update_self, Option.some.injEq] at hr
      subst hr
      rw [hid, update_self, take_length] at hc
      have hle := (h.entry x.ufrag e b he hb).1 c hc hcb
      omega
    · rw [update_of_ne hid] at hr hc
      exact h.reserved id' r b hr ha hb c hc hcb
  · intro u b hb
    rcases h.owner u b hb with hc | ⟨r, hr, ha, hn, hu, hm⟩
    · exact .inl hc
    by_cases hid : b.2 = id
    · rw [hid] at hr
      rw [hidle r hr] at ha
      cases ha
    · exact .inr ⟨r, (update_of_ne hid ..).trans hr, ha, hn, hu, hm⟩

lemma Kept.prepare_new {t' : Table U A}
    (hidle : ∀ r, s.world.reservations id = some r → r.active = false)
    (hnew : ∀ e, s.world.table.Stored e → e.ufrag ≠ x.ufrag)
    (happ : s.world.table.Appended hash slots t' (.new x.ufrag room fd)) (hn : x.newEntry)
    (hroom : x.room = room) (hfd : x.fd = fd) (ha : x.active) {w : World U A} (hw : w =
      { table := t'
        reservations := update s.world.reservations id (some x)
        mapping := update s.world.mapping x.ufrag (some (room, fd)) })
    (hinv : Inv hash slots maxMappings w) :
    Kept hash slots maxMappings { s with
      world := w
      births := update s.births x.ufrag (some (s.created, id))
      created := s.created + 1
      commitsAt := update s.commitsAt id s.commits.length } := by
  have hentry : ∀ u, t'.entryOf hash slots u = if u = x.ufrag then some (.new x.ufrag room fd)
      else s.world.table.entryOf hash slots u :=
    Table.Appended.entryOf h.inv.sound.indexed happ hnew
  -- nothing has been committed under the new number
  have hfresh : ∀ c ∈ s.commits, c.1 ≠ s.created := fun c hc => (h.commits_lt c hc).ne
  subst hw
  refine ⟨hinv, ?_, ?_, ?_, fun c hc => (h.commits_lt c hc).trans (Nat.lt_succ_self _), ?_, ?_,
    ?_, ?_, h.increasing, h.commit_iff⟩
  · intro u
    dsimp only
    by_cases hu : u = x.ufrag
    · rw [hu, update_self, update_self]
      exact ⟨fun _ => rfl, fun _ => rfl⟩
    · rw [update_of_ne hu, update_of_ne hu]
      exact h.born u
  · intro u b hb
    dsimp only at hb ⊢
    obtain ⟨hu, ⟨⟩⟩ | ⟨hu, hb⟩ := update_cases hb
    · exact Nat.lt_succ_self _
    · exact (h.births_lt u b hb).trans (Nat.lt_succ_self _)
  · intro u u' b b' hb hb' heq
    dsimp only at hb hb'
    obtain ⟨hu, ⟨⟩⟩ | ⟨-, hb⟩ := update_cases hb <;> obtain ⟨hu', ⟨⟩⟩ | ⟨-, hb'⟩ := update_cases hb'
    · rw [hu, hu']
    · exact absurd heq.symm (h.births_lt u' b' hb').ne
    · exact absurd heq (h.births_lt u b hb).ne
    · exact h.births_inj u u' b b' hb hb' heq
  · intro id'
    dsimp only
    by_cases hid : id' = id
    · rw [hid, update_self]
    · rw [update_of_ne hid]
      exact h.commitsAt_le id'
  · intro u e b he hb
    dsimp only at he hb ⊢
    rw [hentry] at he
    obtain ⟨hu, ⟨⟩⟩ | ⟨hu, hb⟩ := update_cases hb
    · rw [if_pos hu] at he
      cases he
      exact ⟨fun c hc hcb => absurd hcb (hfresh c hc), nofun⟩
    · rw [if_neg hu] at he
      exact h.entry u e b he hb
  · intro id' r b hr har hb c hc hcb
    dsimp only at hr hb hc
    obtain ⟨hu, ⟨⟩⟩ | ⟨hu, hb⟩ := update_cases hb
    · exact absurd hcb (hfresh c (mem_of_mem_take hc))
    by_cases hid : id' = id
    · rw [hid, update_self] at hr
      cases hr
      exact absurd rfl hu
    · rw [update_of_ne hid] at hr hc
      exact h.reserved id' r b hr har hb c hc hcb
  · intro u b hb
    dsimp only at hb ⊢
    obtain ⟨hu, ⟨⟩⟩ | ⟨hu, hb⟩ := update_cases hb
    · rw [hu, update_self, update_self]
      exact .inr ⟨x, rfl, ha, hn, rfl, by rw [hroom, hfd]⟩
    rcases h.owner u b hb with hc | ⟨r, hr, har, hnr, hur, hm⟩
    · exact .inl hc
    by_cases hid : b.2 = id
    · rw [hid] at hr
      rw [hidle r hr] at har
      cases har
    · refine .inr ⟨r, (update_of_ne hid ..).trans hr, har, hnr, hur, ?_⟩
      rw [update_of_ne hu]
      exact hm

lemma Kept.prepareAnswer (hmax : maxMappings ≤ slots) {client : Option U} {answer : PendingAnswer A}
    (hgen : ∀ u ∈ client, ∀ e ∈ s.world.table.entryOf hash slots u,
      e.pendingAnswer.generation + 1 < 2 ^ 32) :
    Kept hash slots maxMappings
      (s.prepareAnswer hash slots maxMappings id client room fd answer) := by
  unfold Answers.prepareAnswer
  split
  · exact h
  rename_i hidle
  have hidle : ∀ r, s.world.reservations id = some r → r.active = false := by
    intro r hr
    rw [hr, any_some, Bool.not_eq_true] at hidle
    exact hidle
  have hinv := h.inv.prepareAnswer hmax id client room fd answer
  have hstep : Routing.step hash slots maxMappings s.world
      (.prepareAnswer id client room fd answer) =
      s.world.prepareAnswer hash slots maxMappings id client room fd answer := by
    unfold Routing.step
    rw [h.inv.sound.aborted, if_neg Bool.false_ne_true]
  rw [hstep]
  have hprepared := prepareAnswer_prepared h.inv.sound hmax client room fd answer
  unfold World.prepareAnswer at hinv ⊢
  generalize s.world.table.prepareAnswer hash slots maxMappings client room fd answer = r at *
  cases hprepared with
  | @refused result =>
    -- at most the idle reservation is cleared
    have hcleared : Ages hash slots s { s.world with
        reservations := update s.world.reservations id none } := by
      refine ⟨fun _ _ hp => hp, fun _ e he => ⟨e, he, le_rfl, fun hv => hv⟩, ?_, ?_⟩
      · intro id' r hr _
        dsimp only at hr
        by_cases hid : id' = id
        · rw [hid, update_self] at hr
          cases hr
        · rwa [update_of_ne hid] at hr
      · intro u b r _ _ hr har _ _ _
        by_cases hid : b.2 = id
        · rw [hid] at hr
          rw [hidle r hr] at har
          cases har
        · exact .inr ((update_of_ne hid ..).trans hr)
    cases result with
    | invalidArgument => exact h
    | ok | ownershipConflict | tableFull =>
      exact h.ages hcleared (h.inv.reservations _) (fun _ _ hb => hb) h.born
  | @known u e x hclient he hu hn hg =>
    dsimp only at hinv ⊢
    rw [hn, if_neg Bool.false_ne_true] at hinv ⊢
    rw [nextGeneration_eq (hgen u hclient e he)] at hg
    exact h.prepare_known hidle (by rw [hu]; exact he) hg hinv
  | @new u x t' hnew happ hu hn hroom hfd ha =>
    dsimp only at hinv ⊢
    rw [hn, if_pos rfl] at hinv ⊢
    subst hu
    exact h.prepare_new hidle hnew happ hn hroom hfd ha rfl hinv

lemma Kept.step (hmax : maxMappings ≤ slots) {op : AnswerOp U A} (hc : s.Orderly hash slots op) :
    Kept hash slots maxMappings (s.step hash slots maxMappings op) := by
  cases op with
  | reconcileAnswer u room fd generation => exact h.reconcileAnswer u room fd generation
  | call op =>
    have hinv := h.inv.step hmax op
    have hab : ¬ s.world.table.aborted := by
      rw [h.inv.sound.aborted]
      exact Bool.false_ne_true
    have hrun : ∀ w, Routing.step hash slots maxMappings s.world op = w → Ages hash slots s w →
        Kept hash slots maxMappings { s with
          world := Routing.step hash slots maxMappings s.world op
          births := s.remaining (Routing.step hash slots maxMappings s.world op) } := by
      rintro w rfl hages
      exact h.remaining hages hinv
    cases op with
    | prepareAnswer id client room fd answer => exact h.prepareAnswer hmax hc
    | commitAnswer id => exact h.commitAnswer hc
    | cancelAnswer id => exact hrun _ (if_neg hab) (h.cancelAnswer hmax hc)
    | invalidatePending u room fd => exact hrun _ (if_neg hab) (h.invalidatePending hc)
    | lookupRoute u workerIndex => exact hrun _ (if_neg hab) (h.lookupRoute u workerIndex)
    | peekRoute u => exact hrun _ (if_neg hab) ages_refl
    | unregisterFd fd => exact hrun _ (if_neg hab) (h.unregisterFd hmax fd)

end

instance (s : Answers U A) : DecidablePred (s.Orderly hash slots) := by
  intro op
  unfold Orderly
  split <;> infer_instance

/-- As long as no generation wraps, no other answer is committed between prepare and commit, and no
reserved entry has moved when its reservation is closed: published answers are ordered, commits
fail only for entries that are gone, and no entry is left without an answer. -/
theorem answers_published (hash : U → ℕ) {slots maxMappings : ℕ} (hmax : maxMappings ≤ slots)
    (ops : List (AnswerOp U A))
    (h : Runs.Along (step hash slots maxMappings) (Orderly hash slots) init ops) :
    Published hash slots (Runs.run (step hash slots maxMappings) init ops) :=
  (Runs.run_inv_along (step hash slots maxMappings) (I := Kept hash slots maxMappings)
    (fun _ _ hkept hc => hkept.step hmax hc) kept_init h).published

section Runs

/-- A new entry is cancelled; it comes again and gets two answers, one after the other. -/
def published : List (AnswerOp ℕ Unit) :=
  [.call (.prepareAnswer 0 (some 5) 1 10 ⟨some (), 9, 0, true⟩), .call (.cancelAnswer 0),
    .call (.prepareAnswer 0 (some 5) 1 10 ⟨some (), 9, 0, true⟩), .call (.commitAnswer 0),
    .call (.prepareAnswer 1 (some 5) 1 10 ⟨some (), 9, 0, true⟩), .call (.commitAnswer 1)]

theorem answers_published_twice :
    Runs.Along (step (fun _ => 3) 4 3) (Orderly (fun _ => 3) 4) init published ∧
      Published (fun _ => 3) 4 (Runs.run (step (fun _ => 3) 4 3) init published) :=
  have h : Runs.Along (step (fun _ => 3) 4 3) (Orderly (fun _ => 3) 4) init published := by
    decide +kernel
  ⟨h, answers_published _ (by decide) published h⟩

/-- Two answers of one entry are prepared before either is committed. -/
def preparedTwice : List (AnswerOp ℕ Unit) :=
  [.call (.prepareAnswer 0 (some 5) 1 10 ⟨some (), 9, 0, true⟩),
    .call (.prepareAnswer 1 (some 5) 1 10 ⟨some (), 9, 0, true⟩),
    .call (.commitAnswer 0), .call (.commitAnswer 1)]

/-- The connection of an earlier entry goes between prepare and commit. -/
def movedEntry : List (AnswerOp ℕ Unit) :=
  [.call (.prepareAnswer 0 (some 5) 1 10 ⟨some (), 9, 0, true⟩),
    .call (.prepareAnswer 1 (some 6) 1 11 ⟨some (), 9, 0, true⟩),
    .call (.unregisterFd 10), .call (.commitAnswer 1), .call (.cancelAnswer 1)]

/-- Both answers are published with one generation; and the entry that moved is there, its commit
fails, and it is left without an answer, with its reservation closed. -/
theorem answers_collide :
    (Runs.run (step (fun _ => 3) 4 3) init preparedTwice).commits = [(0, 1), (0, 1)] ∧
      let s := Runs.run (step (fun _ => 3) 4 3) init movedEntry
      s.attempts = [(true, false)] ∧ s.commits = [] ∧
        (s.world.table.entryOf (fun _ => 3) 4 6).isSome = true ∧
        (s.world.reservations 1).any Reservation.active = false := by
  decide +kernel

end Runs

end Answers

end MezonSfu.Routing
